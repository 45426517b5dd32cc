import Mathlib.Algebra.GroupWithZero.Nat
import Raphael.Foundation.StepSystem
import Raphael.Learning.Generation

/-! # Governed adoption

Over any run of proposals, approvals, rejections, rollbacks and changes of the governor, no
proposal is adopted twice, nor under a posture that forbids it. Where approval is required
none is adopted at all: the verdict is not told that the operator has approved. -/

namespace Raphael.Learning

open Core Foundation Persistence Personalization

variable {Score : Type}

/-! ## What the calls do to the proposals -/

section Calls

/-- The table of proposals is what it was. -/
abbrev KeepsProposals (effect : LearningM Score α) : Prop :=
  ∀ table, Preserves (fun state => state.proposals = table) effect

theorem keeps_onMemories (effect : MemoryM Score α) : KeepsProposals (onMemories effect) := by
  intro table state same
  unfold leaves onMemories
  cases effect state.memories <;> exact same

theorem keeps_savePreference (now : Int) (profile : PreferenceProfile) :
    KeepsProposals (savePreference now profile : LearningM Score _) := by
  intro table state same
  unfold leaves savePreference
  cases PreferenceStore.save state.preferences now profile <;> exact same

theorem keeps_requireProposed (proposal : LearningProposal Score) :
    KeepsProposals (ProposalEngine.requireProposed proposal) := by
  intro table
  unfold ProposalEngine.requireProposed
  split
  · exact Preserves.throw _
  · exact Preserves.pure _

theorem keeps_adoptToPreferences (occasion : Occasion) (proposal : LearningProposal Score)
    (projectId : String) :
    KeepsProposals (ProposalEngine.adoptToPreferences occasion proposal projectId) := by
  intro table
  unfold ProposalEngine.adoptToPreferences
  refine (keeps_requireProposed proposal table).bind fun _ => ?_
  by_cases isCommunication : proposal.kind = .communication
  · simp only [if_pos isCommunication]
    exact (Preserves.throw _).bind fun _ =>
      (keeps_savePreference _ _ table).bind fun _ => Preserves.pure _
  · simp only [if_neg isCommunication]
    exact (keeps_savePreference _ _ table).bind fun _ => Preserves.pure _

theorem keeps_adoptedProfile (stamp : Stamp) (proposal : LearningProposal Score) :
    KeepsProposals (LearningPipeline.adoptedProfile stamp proposal) := by
  intro table state same
  have stays : (∃ answer, LearningPipeline.adoptedProfile stamp proposal state =
        .ok answer state) ∨
      ∃ error, LearningPipeline.adoptedProfile stamp proposal state = .error error state := by
    unfold LearningPipeline.adoptedProfile
    dsimp only
    split
    · exact .inl ⟨_, rfl⟩
    · split
      · exact .inl ⟨_, rfl⟩
      · split
        · exact .inl ⟨_, rfl⟩
        · exact .inr ⟨_, rfl⟩
    · split
      · exact .inr ⟨_, rfl⟩
      · exact .inl ⟨_, rfl⟩
  unfold leaves
  rcases stays with ⟨answer, returns⟩ | ⟨error, raises⟩
  · rw [returns]
    exact same
  · rw [raises]
    exact same

theorem keeps_revertPreference (occasion : Occasion) (proposal : LearningProposal Score) :
    KeepsProposals (LearningPipeline.revertPreference occasion proposal) := fun table =>
  (keeps_adoptedProfile _ proposal table).bind fun _ =>
    (keeps_savePreference _ _ table).bind fun _ => Preserves.pure _

theorem requireProposed_apply (proposal : LearningProposal Score) (state : LearningState Score) :
    ProposalEngine.requireProposed proposal state =
      if proposal.status = .proposed then .ok () state
      else .error (.domainValidation ("proposal already " ++ proposal.status.value)) state := by
  unfold ProposalEngine.requireProposed
  by_cases isProposed : proposal.status = .proposed
  · rw [if_neg (not_not.mpr isProposed), if_pos isProposed]
    rfl
  · rw [if_pos isProposed, if_neg isProposed]
    rfl

/-- A proposal is looked up, and the state stays as it is. -/
theorem getProposal_cases (proposalId : String) (state : LearningState Score) :
    (∃ error, getProposal proposalId state = .error error state) ∨
      ∃ proposal, state.proposals.get proposalId = some proposal ∧
        getProposal proposalId state = .ok proposal state := by
  unfold getProposal
  split
  · next proposal found => exact .inr ⟨proposal, found, rfl⟩
  · exact .inl ⟨_, rfl⟩

/-- A proposal of the table goes on to another status, under its id. -/
structure Moves (table next : SnapshotTable (LearningProposal Score))
    (before after : LearningProposal Score) : Prop where
  held : table.get before.id = some before
  sameId : after.id = before.id
  get : ∀ id, next.get id = if id = before.id then some after else table.get id

theorem moves_updateProposal {state : LearningState Score} {proposalId : String}
    {before after : LearningProposal Score}
    (found : state.proposals.get proposalId = some before) (sameId : after.id = before.id)
    (now : Int) : ∃ final, updateProposal now after state = .ok () final ∧
      Moves state.proposals final.proposals before (Entity.touch now after) := by
  have isId : before.id = proposalId := SnapshotTable.id_of_get found
  refine ⟨_, rfl, isId ▸ found, sameId, fun id => ?_⟩
  rw [← sameId]
  exact SnapshotTable.get_update state.proposals now after id

theorem reject_cases (now : Int) (proposalId : String) (state : LearningState Score) :
    (∃ error final, LearningPipeline.reject now proposalId state = .error error final ∧
        final.proposals = state.proposals) ∨
      ∃ answer final before after,
        LearningPipeline.reject now proposalId state = .ok answer final ∧
          before.status = .proposed ∧ after.status = .rejected ∧
          Moves state.proposals final.proposals before after := by
  unfold LearningPipeline.reject
  rw [bind_apply]
  rcases getProposal_cases proposalId state with ⟨error, raises⟩ | ⟨before, found, returns⟩
  · rw [raises]
    exact .inl ⟨error, state, rfl, rfl⟩
  · rw [returns]
    dsimp only
    by_cases isProposed : before.status = .proposed
    · let rejected := { before with status := ProposalStatus.rejected }
      have sameId : rejected.id = before.id := rfl
      have rejects : ProposalEngine.reject before state = .ok rejected state := by
        rw [ProposalEngine.reject, bind_apply, requireProposed_apply, if_pos isProposed]
        rfl
      rcases moves_updateProposal found sameId now with ⟨final, updates, moves⟩
      refine .inr ⟨Entity.touch now rejected, final, before, _, ?_, isProposed, rfl, moves⟩
      rw [bind_apply, rejects]
      dsimp only
      rw [bind_apply, updates]
      rfl
    · have raises : ProposalEngine.reject before state =
          .error (.domainValidation ("proposal already " ++ before.status.value)) state := by
        rw [ProposalEngine.reject, bind_apply, requireProposed_apply, if_neg isProposed]
      exact .inl ⟨_, state, bind_eq_error.mpr (.inl raises), rfl⟩

/-- Behind what keeps the proposals, one of them is updated, and nothing raises. -/
theorem updates_behind {effect : LearningM Score α} (keeps : KeepsProposals effect)
    {state : LearningState Score} {proposalId : String} {before after : LearningProposal Score}
    (found : state.proposals.get proposalId = some before) (sameId : after.id = before.id)
    (now : Int) (answer : β) :
    (∃ error final, (effect >>= fun _ => do
          updateProposal now after
          return answer) state = .error error final ∧ final.proposals = state.proposals) ∨
      ∃ final, (effect >>= fun _ => do
          updateProposal now after
          return answer) state = .ok answer final ∧
        Moves state.proposals final.proposals before (Entity.touch now after) := by
  rw [bind_apply]
  cases ran : effect state with
  | error error middle => exact .inl ⟨error, middle, rfl, (keeps _).raised rfl ran⟩
  | ok value middle =>
      have same : middle.proposals = state.proposals := (keeps _).returned rfl ran
      rw [← same] at found ⊢
      rcases moves_updateProposal found sameId now with ⟨final, updates, moves⟩
      refine .inr ⟨final, ?_, moves⟩
      dsimp only
      rw [bind_apply, updates]
      rfl

theorem rollback_cases (occasion : Occasion) (proposalId : String) (stores : Stores Score)
    (state : LearningState Score) :
    (∃ error final, LearningPipeline.rollback occasion proposalId stores state =
          .error error final ∧ final.proposals = state.proposals) ∨
      ∃ answer final before after,
        LearningPipeline.rollback occasion proposalId stores state = .ok answer final ∧
          before.status = .adopted ∧ after.status = .rolledBack ∧
          Moves state.proposals final.proposals before after := by
  unfold LearningPipeline.rollback
  rw [bind_apply]
  rcases getProposal_cases proposalId state with ⟨error, raises⟩ | ⟨before, found, returns⟩
  · rw [raises]
    exact .inl ⟨error, state, rfl, rfl⟩
  · rw [returns]
    dsimp only
    by_cases isAdopted : before.status = .adopted
    · rw [if_neg (not_not.mpr isAdopted)]
      let rolled := { before with
        status := ProposalStatus.rolledBack
        provenance := before.provenance.set "rolled_back" (.bool true) }
      have sameId : rolled.id = before.id := rfl
      have done {γ : Type} {effect : LearningM Score γ} (keeps : KeepsProposals effect) :
          (∃ error final, (effect >>= fun _ => do
              updateProposal occasion.later rolled
              return true) state = .error error final ∧ final.proposals = state.proposals) ∨
            ∃ answer final before after, (effect >>= fun _ => do
              updateProposal occasion.later rolled
              return true) state = .ok answer final ∧
              before.status = .adopted ∧ after.status = .rolledBack ∧
              Moves state.proposals final.proposals before after := by
        rcases updates_behind keeps found sameId occasion.later true with
          failed | ⟨final, returns, moves⟩
        · exact .inl failed
        · exact .inr ⟨true, final, before, _, returns, isAdopted, rfl, moves⟩
      by_cases isMemory : LearningPipeline.provenanceText before "adopted_target" = "memory"
      · rw [if_pos isMemory]
        by_cases missing : stores.memories.isNone = true
        · rw [if_pos missing]
          exact .inl ⟨_, state, rfl, rfl⟩
        · rw [if_neg missing]
          exact done (keeps_onMemories _)
      · rw [if_neg isMemory]
        by_cases isPreference :
            LearningPipeline.provenanceText before "adopted_target" = "preference"
        · rw [if_pos isPreference]
          by_cases missing : (!stores.preferences) = true
          · rw [if_pos missing]
            exact .inl ⟨_, state, rfl, rfl⟩
          · rw [if_neg missing]
            exact done (keeps_revertPreference occasion before)
        · rw [if_neg isPreference]
          exact .inl ⟨_, state, rfl, rfl⟩
    · rw [if_pos isAdopted]
      exact .inl ⟨_, state, rfl, rfl⟩

/-- What is adopted was proposed. -/
structure Settled (before after : LearningProposal Score) : Prop where
  proposed : before.status = .proposed
  adopted : after.status = .adopted
  sameId : after.id = before.id

theorem proposed_of_requireProposed {proposal : LearningProposal Score}
    {state final : LearningState Score} {answer : Unit}
    (returns : ProposalEngine.requireProposed proposal state = .ok answer final) :
    proposal.status = .proposed := by
  rw [requireProposed_apply] at returns
  by_contra other
  rw [if_neg other] at returns
  cases returns

theorem settled_of_adoptToPreferences {occasion : Occasion}
    {proposal settled : LearningProposal Score} {created : PreferenceProfile}
    {projectId : String} {state final : LearningState Score}
    (returns : ProposalEngine.adoptToPreferences occasion proposal projectId state =
      .ok (settled, created) final) : Settled proposal settled := by
  unfold ProposalEngine.adoptToPreferences at returns
  rcases bind_eq_ok.mp returns with ⟨_, middle, required, returns⟩
  by_cases isCommunication : proposal.kind = .communication
  · rw [if_pos isCommunication] at returns
    cases returns
  · rw [if_neg isCommunication] at returns
    rcases bind_eq_ok.mp returns with ⟨profile, last, saved, returns⟩
    cases returns
    exact ⟨proposed_of_requireProposed required, rfl, rfl⟩

section Adoptions

variable [LE Score] [LT Score] [DecidableLE Score] [DecidableLT Score] [Zero Score]
  [One Score]

theorem keeps_adoptToMemory (store : MemoryStore Score) (occasion : Occasion)
    (proposal : LearningProposal Score) :
    KeepsProposals (ProposalEngine.adoptToMemory store occasion proposal) := fun table =>
  (keeps_requireProposed proposal table).bind fun _ =>
    (keeps_onMemories _ table).bind fun _ => Preserves.pure _

theorem keeps_adopt (occasion : Occasion) (proposal : LearningProposal Score)
    (target : String) (stores : Stores Score) (projectId : String) :
    KeepsProposals (LearningPipeline.adopt occasion proposal target stores projectId) := by
  intro table
  unfold LearningPipeline.adopt
  split
  · split
    · exact Preserves.throw _
    · exact (keeps_adoptToMemory _ _ _ table).bind fun _ => Preserves.pure _
  · split
    · by_cases given : stores.preferences = true
      · simp only [given]
        exact (keeps_adoptToPreferences _ _ _ table).bind fun _ => Preserves.pure _
      · simp only [given]
        exact (Preserves.throw _).bind fun _ =>
          (keeps_adoptToPreferences _ _ _ table).bind fun _ => Preserves.pure _
    · exact Preserves.throw _

theorem settled_of_adoptToMemory {store : MemoryStore Score} {occasion : Occasion}
    {proposal settled : LearningProposal Score} {created : Memory Score}
    {state final : LearningState Score}
    (returns : ProposalEngine.adoptToMemory store occasion proposal state =
      .ok (settled, created) final) : Settled proposal settled := by
  unfold ProposalEngine.adoptToMemory at returns
  rcases bind_eq_ok.mp returns with ⟨_, middle, required, returns⟩
  rcases bind_eq_ok.mp returns with ⟨memory, last, stored, returns⟩
  cases returns
  exact ⟨proposed_of_requireProposed required, rfl, rfl⟩

theorem settled_of_adopt {occasion : Occasion} {proposal settled : LearningProposal Score}
    {created : Created Score} {target projectId : String} {stores : Stores Score}
    {state final : LearningState Score}
    (returns : LearningPipeline.adopt occasion proposal target stores projectId state =
      .ok (settled, created) final) : Settled proposal settled := by
  unfold LearningPipeline.adopt at returns
  by_cases isMemory : target = "memory"
  · rw [if_pos isMemory] at returns
    cases given : stores.memories with
    | none =>
        rw [given] at returns
        cases returns
    | some store =>
        rw [given] at returns
        rcases bind_eq_ok.mp returns with ⟨⟨adopted, memory⟩, middle, adopts, returns⟩
        cases returns
        exact settled_of_adoptToMemory adopts
  · rw [if_neg isMemory] at returns
    by_cases isPreference : target = "preference"
    · rw [if_pos isPreference] at returns
      by_cases missing : (!stores.preferences) = true
      · rw [if_pos missing] at returns
        cases returns
      · rw [if_neg missing] at returns
        rcases bind_eq_ok.mp returns with ⟨⟨adopted, profile⟩, middle, adopts, returns⟩
        cases returns
        exact settled_of_adoptToPreferences adopts
    · rw [if_neg isPreference] at returns
      cases returns

theorem approve_cases (pipeline : LearningPipeline Score) (occasion : Occasion)
    (proposalId target : String) (stores : Stores Score) (projectId : String)
    (state : LearningState Score) :
    (∃ error final,
        pipeline.approve occasion proposalId target stores projectId state =
          .error error final ∧ final.proposals = state.proposals) ∨
      ∃ created final before after,
        pipeline.approve occasion proposalId target stores projectId state = .ok created final ∧
          state.proposals.get proposalId = some before ∧
          (∀ governor, pipeline.governor = some governor → governor.mayAdopt before = true) ∧
          Settled before after ∧ Moves state.proposals final.proposals before after := by
  unfold LearningPipeline.approve
  rw [bind_apply]
  rcases getProposal_cases proposalId state with ⟨error, raises⟩ | ⟨before, found, returns⟩
  · rw [raises]
    exact .inl ⟨error, state, rfl, rfl⟩
  · rw [returns]
    dsimp only
    by_cases invalid : (!(pipeline.validate before).1) = true
    · rw [if_pos invalid]
      exact .inl ⟨_, state, rfl, rfl⟩
    · rw [if_neg invalid]
      by_cases blocked : pipeline.governor.any (fun governor => !governor.mayAdopt before) = true
      · rw [if_pos blocked]
        exact .inl ⟨_, state, rfl, rfl⟩
      · rw [if_neg blocked, bind_apply]
        cases ran : LearningPipeline.adopt occasion before target stores projectId state with
        | error error last =>
            exact .inl ⟨error, last, rfl, (keeps_adopt _ _ _ _ _ _).raised rfl ran⟩
        | ok answer last =>
            rcases answer with ⟨settled, created⟩
            have adopts := settled_of_adopt ran
            have same : last.proposals = state.proposals :=
              (keeps_adopt _ _ _ _ _ _).returned rfl ran
            let after := { settled with
              provenance := (settled.provenance.set "adopted_object" (.str created.id)).set
                "adopted_target" (.str target) }
            have held : last.proposals.get proposalId = some before := by rw [same, found]
            have sameId : after.id = before.id := adopts.sameId
            rcases moves_updateProposal held sameId occasion.later with ⟨final, updates, moves⟩
            rw [same] at moves
            refine .inr ⟨created, final, before, Entity.touch occasion.later after, ?_, found,
              fun governor isGovernor => ?_,
              ⟨adopts.proposed, adopts.adopted, adopts.sameId⟩, moves⟩
            · dsimp only
              rw [bind_apply, updates]
              rfl
            · rw [isGovernor] at blocked
              simpa using blocked

end Adoptions

end Calls

theorem mayAdopt_permitted {governor : LearningGovernor} {proposal : LearningProposal Score}
    (may : governor.mayAdopt proposal = true) :
    governor.killed = false ∧ governor.mode ≠ .disabled ∧ governor.mode ≠ .suggestOnly ∧
      governor.mode ≠ .approvalRequired ∧ governor.classify proposal ≠ .critical := by
  unfold LearningGovernor.mayAdopt at may
  by_cases stopped : governor.killed = true ∨ governor.mode = .disabled
  · rw [if_pos stopped] at may
    cases may
  · rw [if_neg stopped] at may
    rw [not_or, Bool.not_eq_true] at stopped
    dsimp only at may
    by_cases critical : governor.classify proposal = .critical
    · rw [if_pos critical] at may
      cases may
    · rw [if_neg critical] at may
      cases isMode : governor.mode <;> rw [isMode] at may stopped
      · cases may
      · cases may
      · cases may
      · exact ⟨stopped.1, nofun, nofun, nofun, critical⟩

/-! ## What is done stays done -/

/-- The proposal for a pattern is filed. -/
def fileProposal (occasion : Occasion) (pattern : UsagePattern Score) :
    LearningM Score (LearningProposal Score) := do
  let proposal ← MonadExcept.ofExcept (ProposalEngine.propose occasion.toStamp pattern)
  createProposal occasion.later proposal

/-- The proposal has been adopted, and perhaps rolled back. -/
def Done (proposal : LearningProposal Score) : Prop :=
  proposal.status = .adopted ∨ proposal.status = .rolledBack

/-- What is done stays done. -/
def StaysDone (table next : SnapshotTable (LearningProposal Score)) : Prop :=
  ∀ id before, table.get id = some before → Done before →
    ∃ after, next.get id = some after ∧ Done after

theorem staysDone_refl (table : SnapshotTable (LearningProposal Score)) :
    StaysDone table table :=
  fun _ before held done => ⟨before, held, done⟩

theorem staysDone_of_moves {table next : SnapshotTable (LearningProposal Score)}
    {before after : LearningProposal Score} (moves : Moves table next before after)
    (goesOn : Done before → Done after) : StaysDone table next := by
  intro id held found done
  rw [moves.get]
  split
  · next same =>
      rw [same, moves.held] at found
      cases found
      exact ⟨after, rfl, goesOn done⟩
  · exact ⟨held, found, done⟩

theorem staysDone_fileProposal (occasion : Occasion) (pattern : UsagePattern Score)
    (state : LearningState Score) :
    StaysDone state.proposals (leaves (fileProposal occasion pattern) state).proposals := by
  unfold leaves fileProposal
  cases proposes : ProposalEngine.propose occasion.toStamp pattern with
  | error error => exact staysDone_refl _
  | ok proposal =>
      rw [ofExcept_bind_ok rfl]
      unfold createProposal
      cases written : state.proposals.create occasion.later proposal with
      | error error => exact staysDone_refl _
      | ok pair =>
          intro id before found done
          have unused := (SnapshotTable.create_eq_ok written).2.2
          have other : id ≠ proposal.id := by
            rintro rfl
            exact Option.some_ne_none before (found.symm.trans unused)
          refine ⟨before, ?_, done⟩
          exact (SnapshotTable.get_create written id).trans ((if_neg other).trans found)

theorem staysDone_reject (now : Int) (proposalId : String) (state : LearningState Score) :
    StaysDone state.proposals
      (leaves (LearningPipeline.reject now proposalId) state).proposals := by
  unfold leaves
  rcases reject_cases now proposalId state with
    ⟨error, final, raises, same⟩ | ⟨answer, final, before, after, returns, proposed, _, moves⟩
  · rw [raises]
    exact same ▸ staysDone_refl _
  · rw [returns]
    refine staysDone_of_moves moves fun done => ?_
    rw [Done, proposed] at done
    rcases done with impossible | impossible <;> cases impossible

theorem staysDone_rollback (occasion : Occasion) (proposalId : String)
    (stores : Stores Score) (state : LearningState Score) :
    StaysDone state.proposals
      (leaves (LearningPipeline.rollback occasion proposalId stores) state).proposals := by
  unfold leaves
  rcases rollback_cases occasion proposalId stores state with
    ⟨error, final, raises, same⟩ | ⟨answer, final, before, after, returns, _, rolled, moves⟩
  · rw [raises]
    exact same ▸ staysDone_refl _
  · rw [returns]
    exact staysDone_of_moves moves fun _ => .inr rolled

/-! ## Runs under a governor -/

inductive GovernedCall (Score : Type)
  | propose (occasion : Occasion) (pattern : UsagePattern Score)
  | approve (occasion : Occasion) (proposalId target : String) (stores : Stores Score)
      (projectId : String)
  | reject (now : Int) (proposalId : String)
  | rollback (occasion : Occasion) (proposalId : String) (stores : Stores Score)
  | setMode (mode : LearningMode)
  | kill
  | revive

/-- An approval: the posture and the proposal that it met, what it was given, and whether it
has adopted. -/
structure Approval (Score : Type) where
  governor : LearningGovernor
  proposalId : String
  proposal : Option (LearningProposal Score)
  target : String
  stores : Stores Score
  adopted : Bool

/-- The governor, the tables, and a record of the approvals for the statements. -/
structure GovernedLearning (Score : Type) where
  governor : LearningGovernor := {}
  state : LearningState Score
  approvals : List (Approval Score) := []

/-- The store that a target needs. -/
def Stores.provides (stores : Stores Score) (target : String) : Bool :=
  target = "memory" && stores.memories.isSome || target = "preference" && stores.preferences

/-- The effect has returned. -/
def hasReturned (result : EStateM.Result Error (LearningState Score) α) : Bool :=
  match result with
  | .ok _ _ => true
  | .error _ _ => false

/-- What is left of a call, whether it has returned or raised. -/
def GovernedLearning.after (run : GovernedLearning Score) (effect : LearningM Score α) :
    GovernedLearning Score :=
  { run with state := leaves effect run.state }

@[simp] theorem GovernedLearning.approvals_after (run : GovernedLearning Score)
    (effect : LearningM Score α) : (run.after effect).approvals = run.approvals := rfl

/-- What an adoption has settled stays so, and none is adopted twice. -/
structure SettledOnce (run : GovernedLearning Score) : Prop where
  once : ∀ id, (run.approvals.countP fun approval =>
    approval.adopted && approval.proposalId = id) ≤ 1
  done : ∀ approval ∈ run.approvals, approval.adopted = true → ∃ proposal,
    run.state.proposals.get approval.proposalId = some proposal ∧ Done proposal

/-- A call that records no approval. -/
theorem SettledOnce.other {run next : GovernedLearning Score} (settled : SettledOnce run)
    (same : next.approvals = run.approvals)
    (stays : StaysDone run.state.proposals next.state.proposals) : SettledOnce next where
  once := by
    rw [same]
    exact settled.once
  done approval member adopted := by
    rw [same] at member
    rcases settled.done approval member adopted with ⟨proposal, held, done⟩
    exact stays _ proposal held done

/-- The approval of a proposal that was still proposed is the first to adopt it. -/
theorem SettledOnce.approve {run next : GovernedLearning Score} (settled : SettledOnce run)
    {approval : Approval Score}
    (approvals : next.approvals = run.approvals ++ [approval])
    (stays : StaysDone run.state.proposals next.state.proposals)
    (adopts : approval.adopted = true → ∃ before after,
      run.state.proposals.get approval.proposalId = some before ∧ before.status = .proposed ∧
        next.state.proposals.get approval.proposalId = some after ∧ Done after) :
    SettledOnce next where
  once id := by
    rw [approvals, List.countP_append, List.countP_singleton]
    split
    · next isAdoption =>
        rw [Bool.and_eq_true, decide_eq_true_eq] at isAdoption
        rcases isAdoption with ⟨adopted, rfl⟩
        rcases adopts adopted with ⟨before, _, found, proposed, _⟩
        have none : (run.approvals.countP fun earlier =>
            earlier.adopted && earlier.proposalId = approval.proposalId) = 0 := by
          rw [List.countP_eq_zero]
          intro earlier member isEarlier
          rw [Bool.and_eq_true, decide_eq_true_eq] at isEarlier
          rcases settled.done earlier member isEarlier.1 with ⟨proposal, held, done⟩
          rw [isEarlier.2, found] at held
          cases held
          rw [Done, proposed] at done
          rcases done with impossible | impossible <;> cases impossible
        rw [none]
    · exact settled.once id
  done other member adopted := by
    rw [approvals, List.mem_append, List.mem_singleton] at member
    rcases member with earlier | rfl
    · rcases settled.done other earlier adopted with ⟨proposal, held, done⟩
      exact stays _ proposal held done
    · rcases adopts adopted with ⟨_, after, _, _, held, done⟩
      exact ⟨after, held, done⟩

section Runs

variable [LT Score] [DecidableLT Score]

namespace LearningPipeline

/-- The pipeline with its governor in a posture. -/
def under (pipeline : LearningPipeline Score) (governor : LearningGovernor) :
    LearningPipeline Score :=
  { pipeline with governor := some governor }

/-- Approval is required, and the operator gives it for a valid and uncritical proposal that
is still proposed, with the store that the target needs. -/
def Explicit (pipeline : LearningPipeline Score) (governor : LearningGovernor)
    (held : Option (LearningProposal Score)) (target : String) (stores : Stores Score) : Prop :=
  governor.mode = .approvalRequired ∧ governor.killed = false ∧
    ∃ proposal, held = some proposal ∧ proposal.status = .proposed ∧
      ((pipeline.under governor).validate proposal).1 = true ∧
      governor.classify proposal ≠ .critical ∧ stores.provides target = true

/-- Proposals are adopted once and under a posture that allows it, and an explicit approval
adopts. -/
structure Governed (pipeline : LearningPipeline Score) (run : GovernedLearning Score) :
    Prop where
  once : ∀ id, (run.approvals.countP fun approval =>
    approval.adopted && approval.proposalId = id) ≤ 1
  permitted : ∀ approval ∈ run.approvals, approval.adopted = true →
    approval.governor.killed = false ∧ approval.governor.mode ≠ .disabled ∧
      approval.governor.mode ≠ .suggestOnly ∧
      ∃ proposal, approval.proposal = some proposal ∧
        approval.governor.classify proposal ≠ .critical
  explicit : ∀ approval ∈ run.approvals,
    pipeline.Explicit approval.governor approval.proposal approval.target approval.stores →
      approval.adopted = true

/-- The call is no explicit approval. -/
def Unasked (pipeline : LearningPipeline Score) (run : GovernedLearning Score) :
    GovernedCall Score → Prop
  | .approve _ proposalId target stores _ =>
      ¬ pipeline.Explicit run.governor (run.state.proposals.get proposalId) target stores
  | _ => True

variable {pipeline : LearningPipeline Score} {run next : GovernedLearning Score}

theorem Governed.other (governed : pipeline.Governed run)
    (same : next.approvals = run.approvals) : pipeline.Governed next := by
  constructor <;> rw [same]
  · exact governed.once
  · exact governed.permitted
  · exact governed.explicit

/-- A recorded approval keeps a run governed exactly where it is no explicit one: under a
posture that requires approval it does not adopt. -/
theorem Governed.approve (governed : pipeline.Governed run) {approval : Approval Score}
    (settled : SettledOnce next) (approvals : next.approvals = run.approvals ++ [approval])
    (adopts : approval.adopted = true → ∃ before, approval.proposal = some before ∧
      approval.governor.mayAdopt before = true) :
    pipeline.Governed next ↔
      ¬ pipeline.Explicit approval.governor approval.proposal approval.target
        approval.stores := by
  have isLast : approval ∈ next.approvals := by
    rw [approvals]
    exact List.mem_append_right _ (List.mem_singleton.mpr rfl)
  constructor
  · intro still isExplicit
    rcases adopts (still.explicit approval isLast isExplicit) with ⟨before, _, may⟩
    exact (mayAdopt_permitted may).2.2.2.1 isExplicit.1
  · intro unasked
    refine ⟨settled.once, fun other member adopted => ?_, fun other member isExplicit => ?_⟩
    · rw [approvals, List.mem_append, List.mem_singleton] at member
      rcases member with earlier | rfl
      · exact governed.permitted other earlier adopted
      · rcases adopts adopted with ⟨before, found, may⟩
        rcases mayAdopt_permitted may with ⟨alive, enabled, adopting, _, uncritical⟩
        exact ⟨alive, enabled, adopting, before, found, uncritical⟩
    · rw [approvals, List.mem_append, List.mem_singleton] at member
      rcases member with earlier | rfl
      · exact governed.explicit other earlier isExplicit
      · exact (unasked isExplicit).elim

theorem Governed.record (governed : pipeline.Governed run) (settled : SettledOnce run)
    (next : GovernedLearning Score) (approval : Approval Score)
    (approvals : next.approvals = run.approvals ++ [approval])
    (stays : StaysDone run.state.proposals next.state.proposals)
    (adopts : approval.adopted = true → ∃ before after, approval.proposal = some before ∧
      run.state.proposals.get approval.proposalId = some before ∧
        approval.governor.mayAdopt before = true ∧ before.status = .proposed ∧
        next.state.proposals.get approval.proposalId = some after ∧ Done after) :
    SettledOnce next ∧ (pipeline.Governed next ↔
      ¬ pipeline.Explicit approval.governor approval.proposal approval.target
        approval.stores) := by
  have settledNext : SettledOnce next := by
    refine settled.approve approvals stays fun adopted => ?_
    rcases adopts adopted with ⟨before, after, _, held, _, proposed, found, done⟩
    exact ⟨before, after, held, proposed, found, done⟩
  refine ⟨settledNext, governed.approve settledNext approvals fun adopted => ?_⟩
  rcases adopts adopted with ⟨before, _, found, _, may, _⟩
  exact ⟨before, found, may⟩

variable [LE Score] [DecidableLE Score] [Zero Score] [One Score]

/-- The record of an approval. -/
def approval (pipeline : LearningPipeline Score) (run : GovernedLearning Score)
    (occasion : Occasion) (proposalId target : String) (stores : Stores Score)
    (projectId : String) : Approval Score where
  governor := run.governor
  proposalId := proposalId
  proposal := run.state.proposals.get proposalId
  target := target
  stores := stores
  adopted := hasReturned ((pipeline.under run.governor).approve occasion proposalId target stores
    projectId run.state)

/-- What an approval leaves. -/
def approving (pipeline : LearningPipeline Score) (run : GovernedLearning Score)
    (occasion : Occasion) (proposalId target : String) (stores : Stores Score)
    (projectId : String) : GovernedLearning Score :=
  { run.after ((pipeline.under run.governor).approve occasion proposalId target stores
      projectId) with
    approvals := run.approvals ++
      [pipeline.approval run occasion proposalId target stores projectId] }

def step (pipeline : LearningPipeline Score) :
    StepFunction (GovernedLearning Score) (GovernedCall Score)
  | run, .propose occasion pattern => some (run.after (fileProposal occasion pattern))
  | run, .approve occasion proposalId target stores projectId =>
      some (pipeline.approving run occasion proposalId target stores projectId)
  | run, .reject now proposalId => some (run.after (reject now proposalId))
  | run, .rollback occasion proposalId stores =>
      some (run.after (rollback occasion proposalId stores))
  | run, .setMode mode => some { run with governor := { run.governor with mode } }
  | run, .kill => some { run with governor := { run.governor with killed := true } }
  | run, .revive => some { run with governor := { run.governor with killed := false } }

/-- An approval adopts under a posture that allows it, or it does not adopt. -/
theorem approval_cases (pipeline : LearningPipeline Score) (run : GovernedLearning Score)
    (occasion : Occasion) (proposalId target : String) (stores : Stores Score)
    (projectId : String) :
    let effect := (pipeline.under run.governor).approve occasion proposalId target stores projectId
    (hasReturned (effect run.state) = false ∧
        StaysDone run.state.proposals (leaves effect run.state).proposals) ∨
      hasReturned (effect run.state) = true ∧
        StaysDone run.state.proposals (leaves effect run.state).proposals ∧
        ∃ before after, run.state.proposals.get proposalId = some before ∧
          run.governor.mayAdopt before = true ∧ before.status = .proposed ∧
          (leaves effect run.state).proposals.get proposalId = some after ∧ Done after := by
  intro effect
  unfold leaves
  rcases approve_cases (pipeline.under run.governor) occasion proposalId target stores projectId
      run.state with
    ⟨error, final, raises, same⟩ |
      ⟨created, final, before, after, returns, found, may, adopts, moves⟩
  · refine .inl ?_
    have isError : effect run.state = .error error final := raises
    rw [isError]
    exact ⟨rfl, same ▸ staysDone_refl _⟩
  · refine .inr ?_
    have isOk : effect run.state = .ok created final := returns
    have done : Done after := .inl adopts.adopted
    have isId : before.id = proposalId := SnapshotTable.id_of_get found
    rw [isOk]
    refine ⟨rfl, staysDone_of_moves moves fun _ => done, before, after, found,
      may run.governor rfl, adopts.proposed, ?_, done⟩
    rw [moves.get, if_pos isId.symm]

/-- A record only grows. -/
theorem persists_of_step {call : GovernedCall Score}
    (stepped : pipeline.step run call = some next) (governed : pipeline.Governed next) :
    pipeline.Governed run := by
  have grows : run.approvals <+: next.approvals := by
    cases call <;> cases stepped
    case approve => exact List.prefix_append _ _
    case propose occasion pattern =>
      rw [GovernedLearning.approvals_after]
    all_goals exact List.prefix_refl _
  refine ⟨fun id => ?_, fun approval member => ?_, fun approval member => ?_⟩
  · exact (grows.sublist.countP_le).trans (governed.once id)
  · exact governed.permitted approval (grows.subset member)
  · exact governed.explicit approval (grows.subset member)

theorem preserved_of_step {call : GovernedCall Score} (settled : SettledOnce run)
    (governed : pipeline.Governed run) (stepped : pipeline.step run call = some next) :
    SettledOnce next ∧ (pipeline.Governed next ↔ pipeline.Unasked run call) := by
  have other (same : next.approvals = run.approvals)
      (stays : StaysDone run.state.proposals next.state.proposals) :
      SettledOnce next ∧ (pipeline.Governed next ↔ True) :=
    ⟨settled.other same stays, iff_true_intro (governed.other same)⟩
  cases call with
  | propose occasion pattern =>
      cases stepped
      exact other (run.approvals_after _) (staysDone_fileProposal occasion pattern run.state)
  | reject now proposalId =>
      cases stepped
      exact other rfl (staysDone_reject now proposalId run.state)
  | rollback occasion proposalId stores =>
      cases stepped
      exact other rfl (staysDone_rollback occasion proposalId stores run.state)
  | setMode mode =>
      cases stepped
      exact other rfl (staysDone_refl _)
  | kill =>
      cases stepped
      exact other rfl (staysDone_refl _)
  | revive =>
      cases stepped
      exact other rfl (staysDone_refl _)
  | approve occasion proposalId target stores projectId =>
      cases stepped
      rcases approval_cases pipeline run occasion proposalId target stores projectId with
        ⟨raised, stays⟩ | ⟨_, stays, before, after, found, may, proposed, held, done⟩
      · exact governed.record settled _ (pipeline.approval run occasion proposalId target stores
          projectId) rfl stays fun adopted =>
            (Bool.false_ne_true (raised.symm.trans adopted)).elim
      · exact governed.record settled _ (pipeline.approval run occasion proposalId target stores
          projectId) rfl stays fun _ =>
            ⟨before, after, found, found, may, proposed, held, done⟩

/-- A run is governed exactly where none of its calls is an explicit approval under a posture
that requires it. -/
theorem governed_iff_unasked (pipeline : LearningPipeline Score) (governor : LearningGovernor)
    (state : LearningState Score) (calls : List (GovernedCall Score))
    (final : GovernedLearning Score)
    (reached : StepFunction.run pipeline.step { governor, state } calls = some final) :
    pipeline.Governed final ↔
      StepFunction.Meets pipeline.step pipeline.Unasked { governor, state } calls := by
  refine StepFunction.final_iff_meets
    (fun _ _ _ settled governed _ stepped => preserved_of_step settled governed stepped)
    (fun _ _ _ stepped governed => persists_of_step stepped governed) ?_ ?_
    (StepFunction.meets_true _ _ _) reached
  · exact ⟨fun _ => Nat.zero_le 1, fun _ member => absurd member List.not_mem_nil⟩
  · exact ⟨fun _ => Nat.zero_le 1, fun _ member => absurd member List.not_mem_nil,
      fun _ member => absurd member List.not_mem_nil⟩

end LearningPipeline

end Runs

/-! ## An approval of a model that is often used -/

def fastModel : UsagePattern Nat where
  id := "pattern"
  patternType := "frequently_used_model"
  description := "Model 'fast' used 5 times."
  evidenceCount := 5
  confidence := 5
  evidence := ["model:fastx5"]

/-- The pattern is proposed, and its proposal approved as a preference. -/
def approvedModel : List (GovernedCall Nat) :=
  [.propose (numbered 0) fastModel,
    .approve (numbered 1) "0" "preference" { preferences := true } ""]

/-- A change of low risk needs no approval, and is adopted. -/
theorem governed_of_low_risk :
    ∃ final, StepFunction.run generator.step
        { governor := { mode := .autoApproveLowRisk }, state := noProposals }
        approvedModel = some final ∧
      generator.Governed final ∧ final.approvals.map Approval.adopted = [true] := by
  refine ⟨_, rfl, (generator.governed_iff_unasked { mode := .autoApproveLowRisk } noProposals
    approvedModel _ rfl).mpr ?_, by decide +kernel⟩
  refine ⟨trivial, fun next stepped => ⟨fun isExplicit => ?_, fun _ _ => trivial⟩⟩
  cases stepped
  cases isExplicit.1

/-- Where approval is required, the explicit approval is refused. -/
theorem explicit_approval_refused :
    ¬ ∀ (calls : List (GovernedCall Nat)) (final : GovernedLearning Nat),
      StepFunction.run generator.step { state := noProposals } calls = some final →
        generator.Governed final := by
  intro governed
  have explicit := (governed approvedModel _ rfl).explicit _ (List.mem_singleton.mpr rfl)
  have isExplicit : generator.Explicit {}
      (some (LearningPipeline.filed (fastModel, numbered 0))) "preference"
      { preferences := true } :=
    ⟨rfl, rfl, _, rfl, rfl, by decide +kernel, by decide +kernel, rfl⟩
  have adopted := explicit isExplicit
  revert adopted
  decide +kernel

end Raphael.Learning
