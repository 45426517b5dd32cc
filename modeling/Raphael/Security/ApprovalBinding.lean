import Raphael.Security.ApprovalStore

/-! # Approvals are bound to their action

What holds of every request of a store that any history has led to, and what
stays of a request whatever is done to the store afterwards. -/

namespace Raphael.Security

open Core

/-- The digest tells two documents apart. -/
def Separates (sha256 : String → String) (left right : Json) : Prop :=
  sha256 left.canonicalText = sha256 right.canonicalText → left.sortKeys = right.sortKeys

/-- The same dict, whatever the order of its keys. -/
def SameArguments (left right : Arguments) : Prop :=
  (Json.obj left).sortKeys = (Json.obj right).sortKeys

theorem sortKeys_approvalDocument (tool : String) (arguments : Arguments) (policy : String) :
    (approvalDocument tool arguments policy).sortKeys =
      .obj [("arguments", (Json.obj arguments).sortKeys), ("policy", .str policy),
        ("tool", .str tool)] := by
  have first : ¬ "tool" ≤ "arguments" := by decide
  have second : ¬ "tool" ≤ "policy" := by decide
  have third : "arguments" ≤ "policy" := by decide
  simp [approvalDocument, Json.sortKeys, Json.sortFields, List.insertionSort,
    List.orderedInsert, first, second, third]

theorem parts_eq_of_approvalDocument_eq {tool otherTool policy otherPolicy : String}
    {arguments otherArguments : Arguments}
    (equal : (approvalDocument tool arguments policy).sortKeys =
      (approvalDocument otherTool otherArguments otherPolicy).sortKeys) :
    tool = otherTool ∧ SameArguments arguments otherArguments ∧ policy = otherPolicy := by
  rw [sortKeys_approvalDocument, sortKeys_approvalDocument] at equal
  simp only [Json.obj.injEq, List.cons.injEq, Prod.mk.injEq, Json.str.injEq, true_and,
    and_true] at equal
  exact ⟨equal.2.2, equal.1, equal.2.1⟩

/-- The hash does not depend on the order of the keys. -/
theorem approvalHash_eq_of_sameArguments (sha256 : String → String) (tool policy : String)
    {arguments other : Arguments} (same : SameArguments arguments other) :
    approvalHash sha256 tool arguments policy = approvalHash sha256 tool other policy := by
  unfold SameArguments at same
  simp only [approvalHash, Json.canonicalText, sortKeys_approvalDocument, same]

namespace ApprovalRequest

/-- Decided APPROVED before its expiry. -/
def ApprovedInTime (request : ApprovalRequest) : Prop :=
  request.status = .approved ∧ ∃ decided expiry, request.decidedAt = some decided ∧
    request.expiresAt = some expiry ∧ decided < expiry

/-- What every request of a store satisfies. -/
structure IsValid (sha256 : String → String) (request : ApprovalRequest) : Prop where
  bound : request.IsBound sha256
  expires : request.expiresAt.isSome
  inTime : request.status = .approved → request.ApprovedInTime

/-- What identifies the action a request is for. -/
structure SameAction (left right : ApprovalRequest) : Prop where
  taskId : left.taskId = right.taskId
  tool : left.tool = right.tool
  arguments : left.arguments = right.arguments
  argumentsHash : left.argumentsHash = right.argumentsHash
  policy : left.policy = right.policy

variable {sha256 : String → String} {now : Int} {request evolved : ApprovalRequest}

theorem SameAction.refl (request : ApprovalRequest) : request.SameAction request :=
  ⟨rfl, rfl, rfl, rfl, rfl⟩

theorem SameAction.trans {first second third : ApprovalRequest}
    (left : first.SameAction second) (right : second.SameAction third) :
    first.SameAction third :=
  ⟨left.taskId.trans right.taskId, left.tool.trans right.tool,
    left.arguments.trans right.arguments, left.argumentsHash.trans right.argumentsHash,
    left.policy.trans right.policy⟩

theorem IsFresh.isValid (fresh : request.IsFresh sha256) : request.IsValid sha256 :=
  ⟨fresh.bound, fresh.expires, fun approved => by simp [fresh.pending] at approved⟩

theorem Evolves.sameAction (evolves : Evolves now request evolved) :
    evolved.SameAction request := by
  cases evolves with
  | kept => exact .refl _
  | expired pending => exact ⟨rfl, rfl, rfl, rfl, rfl⟩
  | decided pending inTime approved decidedBy => exact ⟨rfl, rfl, rfl, rfl, rfl⟩

/-- A status that is not PENDING is final. -/
theorem Evolves.eq_of_final (evolves : Evolves now request evolved)
    (final : request.status ≠ .pending) : evolved = request := by
  cases evolves with
  | kept => rfl
  | expired pending => exact absurd pending final
  | decided pending inTime approved decidedBy => exact absurd pending final

theorem Evolves.isValid (evolves : Evolves now request evolved)
    (valid : request.IsValid sha256) : evolved.IsValid sha256 := by
  cases evolves with
  | kept => exact valid
  | expired pending => exact ⟨valid.bound, valid.expires, fun approved => by cases approved⟩
  | decided pending inTime approved decidedBy =>
      refine ⟨valid.bound, valid.expires, fun isApproved => ⟨isApproved, ?_⟩⟩
      rcases Option.isSome_iff_exists.mp valid.expires with ⟨expiry, expires⟩
      simp only [hasExpired, expires, decide_eq_false_iff_not, not_le] at inTime
      exact ⟨now, expiry, rfl, expires, inTime⟩

end ApprovalRequest

namespace ApprovalStore

open ApprovalRequest

variable {identities : Identities} {now : Int}

def IsValid (sha256 : String → String) (store : ApprovalStore) : Prop :=
  ∀ request ∈ store.requests, request.IsValid sha256

/-- What stays of every request of the store. -/
def Persists (store next : ApprovalStore) : Prop :=
  ∀ (place : Nat) (request : ApprovalRequest), store.requests[place]? = some request →
    ∃ later, next.requests[place]? = some later ∧ later.SameAction request ∧
      (request.status ≠ .pending → later = request)

theorem exists_of_forall₂ {Related : ApprovalRequest → ApprovalRequest → Prop}
    {before after : List ApprovalRequest} (related : List.Forall₂ Related before after)
    {place : Nat} {later : ApprovalRequest} (found : after[place]? = some later) :
    ∃ request, before[place]? = some request ∧ Related request later := by
  rcases List.forall₂_iff_get.mp related with ⟨sameLength, atPlace⟩
  rcases List.getElem?_eq_some_iff.mp found with ⟨bound, rfl⟩
  have beforeBound : place < before.length := sameLength ▸ bound
  exact ⟨_, List.getElem?_eq_getElem beforeBound, atPlace place beforeBound bound⟩

/-- A request is one that has evolved, or a fresh one behind the others. -/
theorem Changes.before {store next : ApprovalStore}
    (changes : Changes identities now store next) {place : Nat} {later : ApprovalRequest}
    (found : next.requests[place]? = some later) :
    (∃ request, store.requests[place]? = some request ∧ Evolves now request later) ∨
      (store.requests.length ≤ place ∧ later.IsFresh identities.sha256) := by
  rcases changes with ⟨evolved, created, evolves, shape, fresh⟩
  rw [shape] at found
  by_cases bound : place < evolved.length
  · rw [List.getElem?_append_left bound] at found
    exact .inl (exists_of_forall₂ evolves found)
  · rw [List.getElem?_append_right (by omega)] at found
    exact .inr ⟨by rw [evolves.length_eq]; omega, fresh _ (List.mem_of_getElem? found)⟩

/-- Every request of the store evolves in its place. -/
theorem Changes.after {store next : ApprovalStore}
    (changes : Changes identities now store next) {place : Nat} {request : ApprovalRequest}
    (present : store.requests[place]? = some request) :
    ∃ later, next.requests[place]? = some later ∧ Evolves now request later := by
  rcases changes with ⟨evolved, created, evolves, shape, -⟩
  rcases exists_of_forall₂ evolves.flip present with ⟨later, found, step⟩
  refine ⟨later, ?_, step⟩
  rw [shape, List.getElem?_append_left (List.getElem?_eq_some_iff.mp found).1, found]

theorem Changes.isValid {store next : ApprovalStore}
    (changes : Changes identities now store next)
    (valid : store.IsValid identities.sha256) : next.IsValid identities.sha256 := by
  intro request member
  rcases List.mem_iff_getElem?.mp member with ⟨place, found⟩
  rcases changes.before found with ⟨earlier, present, evolves⟩ | ⟨_, fresh⟩
  · exact evolves.isValid (valid _ (List.mem_of_getElem? present))
  · exact fresh.isValid

theorem Changes.persists {store next : ApprovalStore}
    (changes : Changes identities now store next) : store.Persists next := by
  intro place request present
  rcases changes.after present with ⟨later, found, evolves⟩
  exact ⟨later, found, evolves.sameAction, evolves.eq_of_final⟩

theorem Persists.refl (store : ApprovalStore) : store.Persists store :=
  fun _ request present => ⟨request, present, .refl _, fun _ => rfl⟩

theorem Persists.trans {first second third : ApprovalStore}
    (front : first.Persists second) (back : second.Persists third) :
    first.Persists third := by
  intro place request present
  rcases front place request present with ⟨middle, found, same, final⟩
  rcases back place middle found with ⟨later, foundLater, sameLater, finalLater⟩
  refine ⟨later, foundLater, sameLater.trans same, fun settled => ?_⟩
  have unchanged := final settled
  rw [finalLater (unchanged ▸ settled), unchanged]

/-- A store that operations have led from one to the other. -/
structure Leads (sha256 : String → String) (store next : ApprovalStore) : Prop where
  valid : store.IsValid sha256 → next.IsValid sha256
  persists : store.Persists next

theorem Leads.refl (sha256 : String → String) (store : ApprovalStore) :
    store.Leads sha256 store :=
  ⟨id, .refl store⟩

theorem Leads.trans {sha256 : String → String} {first second third : ApprovalStore}
    (front : first.Leads sha256 second) (back : second.Leads sha256 third) :
    first.Leads sha256 third :=
  ⟨back.valid ∘ front.valid, front.persists.trans back.persists⟩

theorem Changes.leads {store next : ApprovalStore}
    (changes : Changes identities now store next) :
    store.Leads identities.sha256 next :=
  ⟨changes.isValid, changes.persists⟩

/-- A history keeps the action of every request, and every final status. -/
theorem leads_after (identities : Identities) (store : ApprovalStore)
    (history : List StoreOperation) :
    store.Leads identities.sha256 (store.after identities history) := by
  induction history generalizing store with
  | nil => exact .refl _ store
  | cons operation rest induction =>
      exact (apply_changes store operation).leads.trans (induction _)

/-- Every request of a store that a history has led to is valid. -/
theorem after_isValid (identities : Identities) {store : ApprovalStore}
    (empty : store.requests = []) (history : List StoreOperation) :
    (store.after identities history).IsValid identities.sha256 :=
  (leads_after identities store history).valid fun request member => by
    simp [empty] at member

/-! ## What the operations return -/

private theorem findValidIn_some {taskId tool wanted : String}
    {requests : List ApprovalRequest} {place : Nat}
    (found : (findValidIn now taskId tool wanted requests).2 = some place) :
    ∃ request, (findValidIn now taskId tool wanted requests).1[place]? = some request ∧
      request.taskId = taskId ∧ request.approves tool wanted = true := by
  induction requests generalizing place with
  | nil => simp [findValidIn] at found
  | cons request rest induction =>
      simp only [findValidIn] at found ⊢
      split at found
      · next skipped =>
          rcases Option.map_eq_some_iff.mp found with ⟨place, foundRest, rfl⟩
          simpa [skipped] using induction foundRest
      · next considered =>
          simp only [considered]
          split at found
          · next approves =>
              obtain rfl : 0 = place := by simpa using found
              have sameTask : request.taskId = taskId := by
                simp only [Bool.or_eq_true, bne_iff_ne, not_or, not_not] at considered
                exact considered.1
              refine ⟨expireOne now request, by simp [approves], ?_, approves⟩
              exact (evolves_expireOne request).sameAction.taskId.trans sameTask
          · next refuses =>
              rcases Option.map_eq_some_iff.mp found with ⟨place, foundRest, rfl⟩
              simpa [refuses] using induction foundRest

/-- `find_valid` returns an approved request of the task, the tool and the hash. -/
theorem findValid_some {store : ApprovalStore} {taskId tool policy : String}
    {arguments : Arguments} {place : Nat}
    (found : (store.findValid identities now taskId tool arguments policy).2 = some place) :
    ∃ request,
      (store.findValid identities now taskId tool arguments policy).1.requests[place]? =
        some request ∧
      request.taskId = taskId ∧
      request.approves tool (approvalHash identities.sha256 tool arguments policy) = true :=
  findValidIn_some found

/-- `request` returns a request of the task, unless it was called for no task. -/
theorem request_ok {store : ApprovalStore} {taskId tool risk reason policy : String}
    {arguments : Arguments} {ttl : Option Int} {place : Nat}
    (returned : (store.request identities now taskId tool arguments risk reason policy
      ttl).2 = .ok place) (named : taskId ≠ "") :
    ∃ made, (store.request identities now taskId tool arguments risk reason policy
        ttl).1.requests[place]? = some made ∧ made.taskId = taskId := by
  simp only [request] at returned ⊢
  split at returned
  · next foundPlace found =>
      obtain rfl : foundPlace = place := by simpa using returned
      rcases List.findIdx?_eq_some_iff_getElem.mp found with ⟨bound, matching, -⟩
      refine ⟨_, List.getElem?_eq_getElem bound, ?_⟩
      simp only [isPendingFor, Bool.and_eq_true, Bool.or_eq_true, beq_iff_eq] at matching
      exact matching.1.1.2.resolve_left named
  · next missing =>
      split at returned
      · simp at returned
      · next positive =>
          simp only [Except.ok.injEq] at returned
          subst returned
          simp only [positive, if_false]
          refine ⟨_, List.getElem?_concat_length, rfl⟩

/-- `verify` accepts an approved request of the tool and the hash. -/
theorem verify_true {store : ApprovalStore} {place : Nat} {tool policy : String}
    {arguments : Arguments}
    (verified : (store.verify identities now place tool arguments policy).2 = true) :
    ∃ request, (store.verify identities now place tool arguments policy).1.requests[place]? =
        some request ∧
      request.approves tool (approvalHash identities.sha256 tool arguments policy) = true := by
  unfold verify at verified ⊢
  split at verified
  · simp at verified
  · next request present =>
      have bound := (List.getElem?_eq_some_iff.mp present).1
      exact ⟨_, by simp [List.getElem?_set_self bound], verified⟩

end ApprovalStore

/-- A valid request that approves a hash is an approval in time of exactly the
action the hash is of. -/
theorem ApprovalRequest.IsValid.exact_of_approves {sha256 : String → String}
    {request : ApprovalRequest} {tool policy : String} {arguments : Arguments}
    (valid : request.IsValid sha256)
    (approves : request.approves tool (approvalHash sha256 tool arguments policy) = true)
    (separates : Separates sha256
      (approvalDocument request.tool request.arguments request.policy)
      (approvalDocument tool arguments policy)) :
    request.ApprovedInTime ∧ request.tool = tool ∧
      SameArguments request.arguments arguments ∧ request.policy = policy := by
  simp only [ApprovalRequest.approves, Bool.and_eq_true, beq_iff_eq] at approves
  rcases approves with ⟨⟨approved, sameTool⟩, sameHash⟩
  have parts := parts_eq_of_approvalDocument_eq
    (separates (valid.bound.symm.trans sameHash))
  exact ⟨valid.inTime approved, sameTool, parts.2.1, parts.2.2⟩

end Raphael.Security
