import Raphael.Security.ApprovalBinding
import Raphael.Security.AuthorizationManager

/-! # The rulings of the authorization manager

What stands behind a grant, and what the manager leaves of the store. -/

namespace Raphael.Security

open Core
open Tools

/-- The store that there may be, led from one to the other. -/
def Leads (sha256 : String → String) : Option ApprovalStore → Option ApprovalStore → Prop :=
  Option.Rel (ApprovalStore.Leads sha256)

theorem Leads.refl (sha256 : String → String) (approvals : Option ApprovalStore) :
    Leads sha256 approvals approvals := by
  cases approvals with
  | none => exact .none
  | some store => exact .some (.refl sha256 store)

theorem Leads.trans {sha256 : String → String} {first second third : Option ApprovalStore}
    (front : Leads sha256 first second) (back : Leads sha256 second third) :
    Leads sha256 first third := by
  cases front with
  | none => exact back
  | some front =>
      cases back with
      | some back => exact .some (front.trans back)

theorem Leads.isValid {sha256 : String → String} {first second : Option ApprovalStore}
    (leads : Leads sha256 first second)
    (valid : ∀ store, first = some store → store.IsValid sha256) :
    ∀ store, second = some store → store.IsValid sha256 := by
  rintro store rfl
  cases leads with
  | some leads => exact leads.valid (valid _ rfl)

namespace AuthorizationManager

variable {externals : Externals} {surroundings : Surroundings}
  {manager : AuthorizationManager} {taskId : String} {tool : Tool} {call : ToolCall}
  {approvals next : Option ApprovalStore} {permission : Permission}

/-- A request for the tool and the arguments of a call that a human has approved. -/
def Approved (externals : Externals) (manager : AuthorizationManager) (tool : Tool)
    (call : ToolCall) (request : ApprovalRequest) : Prop :=
  request.approves tool.name (approvalHash externals.identities.sha256 tool.name
    call.arguments manager.policy.name) = true

/-! ## The gate -/

theorem approvalGate_leads (assessment : RiskAssessment) :
    Leads externals.identities.sha256 approvals
      (manager.approvalGate externals surroundings taskId tool call assessment
        approvals).2 := by
  cases approvals with
  | none => exact .none
  | some store =>
      have found : store.Leads externals.identities.sha256
          ((surroundings.before externals.identities .finding store).findValid
            externals.identities (surroundings.clock .finding) taskId tool.name
            call.arguments manager.policy.name).1 :=
        (ApprovalStore.leads_after _ _ _).trans
          (ApprovalStore.findValid_changes _ _ _ _ _).leads
      simp only [approvalGate]
      split
      · exact .some found
      · split
        · exact .some (found.trans ((ApprovalStore.leads_after _ _ _).trans
            (ApprovalStore.request_changes _ _ _ _ _ _ _ _).leads))
        · exact .some (found.trans ((ApprovalStore.leads_after _ _ _).trans
            (ApprovalStore.request_changes _ _ _ _ _ _ _ _).leads))

/-- The gate grants a call for an approved request of its task. -/
theorem approvalGate_granted {assessment : RiskAssessment}
    (ruled : manager.approvalGate externals surroundings taskId tool call assessment
      approvals = (.ok permission, next))
    (granted : permission.decision = .granted) :
    ∃ (store : ApprovalStore) (place : Nat) (request : ApprovalRequest),
      next = some store ∧ store.requests[place]? = some request ∧
      request.taskId = taskId ∧ Approved externals manager tool call request := by
  cases approvals with
  | none =>
      simp only [approvalGate, Prod.mk.injEq, Except.ok.injEq] at ruled
      simp [← ruled.1, PermissionEngine.decide] at granted
  | some store =>
      simp only [approvalGate] at ruled
      split at ruled
      · next place found =>
          simp only [Prod.mk.injEq, Except.ok.injEq] at ruled
          rcases ApprovalStore.findValid_some found with ⟨request, present, sameTask, approved⟩
          exact ⟨_, place, request, ruled.2.symm, present, sameTask, approved⟩
      · split at ruled
        · simp at ruled
        · simp only [Prod.mk.injEq, Except.ok.injEq] at ruled
          simp [← ruled.1] at granted

/-- A pending call waits for a request of its task, if it is for a task at all. -/
theorem approvalGate_pending {assessment : RiskAssessment}
    (ruled : manager.approvalGate externals surroundings taskId tool call assessment
      approvals = (.ok permission, next))
    (pending : permission.decision = .pending) :
    ∃ (store : ApprovalStore) (place : Nat),
      next = some store ∧ permission.approvalId = some place ∧
      (taskId ≠ "" → ∃ request, store.requests[place]? = some request ∧
        request.taskId = taskId) := by
  cases approvals with
  | none =>
      simp only [approvalGate, Prod.mk.injEq, Except.ok.injEq] at ruled
      simp [← ruled.1, PermissionEngine.decide] at pending
  | some store =>
      simp only [approvalGate] at ruled
      split at ruled
      · simp only [Prod.mk.injEq, Except.ok.injEq] at ruled
        simp [← ruled.1, PermissionEngine.decide] at pending
      · split at ruled
        · simp at ruled
        · next place requested =>
            simp only [Prod.mk.injEq, Except.ok.injEq] at ruled
            refine ⟨_, place, ruled.2.symm, by simp [← ruled.1], fun named => ?_⟩
            exact ApprovalStore.request_ok requested named

/-! ## The decision -/

/-- The decision on a registered tool whose arguments are valid. -/
theorem authorize_eq (registered : manager.registry.get tool.name = some tool)
    (valid : checkArguments externals.schemaErrors tool call.arguments = .ok []) :
    manager.authorize externals surroundings call.taskId tool call approvals =
      let agent := manager.effectiveAgent manager.context.agentId
      let assessment := manager.assessment externals call.taskId manager.context.agentId
        tool call
      let ruling := manager.policyEngine.evaluate assessment tool.name agent
      if manager.policy.hardDenied agent tool.name assessment.level then
        (.ok (manager.permissions.decide call.taskId call false ruling.2), approvals)
      else if manager.needsApproval tool assessment.level then
        manager.approvalGate externals surroundings call.taskId tool call assessment
          approvals
      else
        (.ok (manager.permissions.decide call.taskId call ruling.1 ruling.2),
          approvals) := by
  simp only [authorize, decide, registered, valid, bne_self_eq_false, Bool.false_eq_true,
    if_false]
  split
  · rfl
  · split
    · cases manager.approvalGate externals surroundings call.taskId tool call
        (manager.assessment externals call.taskId manager.context.agentId tool call)
        approvals with
      | mk gate approvals => cases gate <;> rfl
    · rfl

/-! ## The wait -/

theorem awaitPolls_leads (place remaining index : Nat) (store : ApprovalStore) :
    store.Leads externals.identities.sha256
      (awaitPolls externals surroundings permission place remaining index store).2 := by
  induction remaining generalizing index store with
  | zero => exact .refl _ store
  | succ remaining induction =>
      have swept : store.Leads externals.identities.sha256
          ((surroundings.before externals.identities (.poll index) store).sweepExpired
            (surroundings.clock (.poll index))) :=
        (ApprovalStore.leads_after _ _ _).trans (ApprovalStore.sweepExpired_changes _).leads
      simp only [awaitPolls]
      split
      · exact .refl _ store
      · split
        · exact swept
        · split
          · exact swept
          · exact swept.trans (induction _ _)
          · exact swept

theorem awaitApproval_leads :
    Leads externals.identities.sha256 approvals
      (awaitApproval externals surroundings permission approvals).2 := by
  unfold awaitApproval
  split
  · exact .refl _ _
  · split
    · exact .some (awaitPolls_leads _ _ _ _)
    · exact .refl _ _

/-- Waiting never changes what request a permission is for. -/
theorem awaitPolls_approvalId (place remaining index : Nat) (store : ApprovalStore) :
    (awaitPolls externals surroundings permission place remaining index
      store).1.approvalId = permission.approvalId := by
  induction remaining generalizing index store with
  | zero => rfl
  | succ remaining induction =>
      simp only [awaitPolls]
      split
      · rfl
      · split
        · rfl
        · split
          · rfl
          · exact induction _ _
          · rfl

theorem awaitApproval_approvalId :
    (awaitApproval externals surroundings permission approvals).1.approvalId =
      permission.approvalId := by
  unfold awaitApproval
  split
  · rfl
  · split
    · exact awaitPolls_approvalId _ _ _ _
    · rfl

/-! ## The last check -/

theorem checkApproval_leads :
    Leads externals.identities.sha256 approvals
      (manager.checkApproval externals surroundings permission tool call approvals).2 := by
  unfold checkApproval
  split
  · exact .some ((ApprovalStore.leads_after _ _ _).trans
      (ApprovalStore.verify_changes _ _ _ _ _).leads)
  · exact .refl _ _

theorem checkApproval_true
    (checked : (manager.checkApproval externals surroundings permission tool call
      approvals).1 = true) :
    ∃ (place : Nat) (store : ApprovalStore) (request : ApprovalRequest),
      permission.approvalId = some place ∧
      (manager.checkApproval externals surroundings permission tool call approvals).2 =
        some store ∧
      store.requests[place]? = some request ∧
      Approved externals manager tool call request := by
  unfold checkApproval at checked ⊢
  split at checked
  · next place store identified =>
      rcases ApprovalStore.verify_true checked with ⟨request, present, approved⟩
      exact ⟨place, _, request, identified, rfl, present, approved⟩
  · simp at checked

end AuthorizationManager

end Raphael.Security
