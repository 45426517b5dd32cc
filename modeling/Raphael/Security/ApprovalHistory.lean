import Raphael.Security.ApprovalBinding

/-! # Approvals and their history

What a store answers, said of the operations that were made on it: the one that made
a request, and the one that approved it. -/

namespace Raphael.Security

open Core

theorem ApprovalRequest.Evolves.expiresAt {now : Int} {request later : ApprovalRequest}
    (evolves : Evolves now request later) : later.expiresAt = request.expiresAt := by
  cases evolves <;> rfl

namespace ApprovalStore

open ApprovalRequest

variable {identities : Identities} {now : Int}

/-- An operation of the history made the request at the place. -/
def Made (identities : Identities) (store : ApprovalStore) (history : List StoreOperation)
    (place : Nat) (taskId tool : String) (arguments : Arguments) (policy : String)
    (expiry : Int) : Prop :=
  ∃ earlier now risk reason ttl later,
    history = earlier ++ .request now taskId tool arguments risk reason policy ttl :: later ∧
    ((store.after identities earlier).request identities now taskId tool arguments risk
      reason policy ttl).2 = .ok place ∧
    (store.after identities earlier).requests.length = place ∧
    expiry = now + ttl.getD (store.after identities earlier).defaultTtl

/-- An operation of the history approved the request at the place. -/
def Approved (identities : Identities) (store : ApprovalStore)
    (history : List StoreOperation) (place : Nat) (decided : Int) : Prop :=
  ∃ earlier decidedBy later request,
    history = earlier ++ .decide decided place true decidedBy :: later ∧
    ((store.after identities earlier).decide identities decided place true decidedBy).2 =
      .ok request

/-- The request was made for exactly this action, and approved before its expiry. -/
def Grants (identities : Identities) (store : ApprovalStore)
    (history : List StoreOperation) (place : Nat) (taskId tool : String)
    (arguments : Arguments) (policy : String) : Prop :=
  ∃ made expiry decided,
    store.Made identities history place taskId tool made policy expiry ∧
    SameArguments made arguments ∧
    store.Approved identities history place decided ∧ decided < expiry

/-- No two pending requests of a task have one tool and one hash. -/
def OnePending (store : ApprovalStore) : Prop :=
  ∀ (left right : Nat) (first second : ApprovalRequest),
    store.requests[left]? = some first → store.requests[right]? = some second →
    first.status = .pending → second.status = .pending → first.taskId = second.taskId →
    first.tool = second.tool → first.argumentsHash = second.argumentsHash → left = right

theorem after_append (store : ApprovalStore) (front back : List StoreOperation) :
    store.after identities (front ++ back) =
      (store.after identities front).after identities back :=
  List.foldl_append

theorem Made.append {store : ApprovalStore} {history : List StoreOperation} {place : Nat}
    {taskId tool policy : String} {arguments : Arguments} {expiry : Int}
    (made : store.Made identities history place taskId tool arguments policy expiry)
    (more : List StoreOperation) :
    store.Made identities (history ++ more) place taskId tool arguments policy expiry := by
  rcases made with ⟨earlier, now, risk, reason, ttl, later, rfl, returned⟩
  exact ⟨earlier, now, risk, reason, ttl, later ++ more, by simp, returned⟩

theorem Approved.append {store : ApprovalStore} {history : List StoreOperation}
    {place : Nat} {decided : Int} (approved : store.Approved identities history place decided)
    (more : List StoreOperation) :
    store.Approved identities (history ++ more) place decided := by
  rcases approved with ⟨earlier, decidedBy, later, request, rfl, returned⟩
  exact ⟨earlier, decidedBy, later ++ more, request, by simp, returned⟩

/-! ## One operation -/

/-- An operation other than `decide` approves nothing and makes nothing pending. -/
private theorem eq_of_lapses {request later : ApprovalRequest}
    (lapses : Lapses now request later)
    (status : later.status = .approved ∨ later.status = .pending) : later = request := by
  rcases lapses with same | lapsed
  · exact same
  · unfold expireOne at lapsed
    split at lapsed
    · rw [lapsed] at status
      rcases status with status | status <;> cases status
    · exact lapsed

private theorem getElem?_concat {requests : List ApprovalRequest}
    {last request : ApprovalRequest} {place : Nat}
    (found : (requests ++ [last])[place]? = some request) :
    (place < requests.length ∧ requests[place]? = some request) ∨
      (place = requests.length ∧ request = last) := by
  by_cases inside : place < requests.length
  · rw [List.getElem?_append_left inside] at found
    exact .inl ⟨inside, found⟩
  · rw [List.getElem?_append_right (by omega), List.getElem?_singleton] at found
    split at found
    · exact .inr ⟨by omega, (Option.some.inj found).symm⟩
    · cases found

/-- Where a request of the store behind an operation comes from: it was there, it was
decided, or it was made and stands for itself. -/
theorem apply_cases (store : ApprovalStore) (operation : StoreOperation) {place : Nat}
    {later : ApprovalRequest}
    (found : (operation.apply identities store).requests[place]? = some later) :
    (∃ request, store.requests[place]? = some request ∧
      Lapses operation.now request later) ∨
    (∃ approved decidedBy request, operation = .decide operation.now place approved decidedBy ∧
      store.requests[place]? = some request ∧ request.hasExpired operation.now = false ∧
      Evolves operation.now request later ∧
      later.status = (if approved then .approved else .denied) ∧
      (store.decide identities operation.now place approved decidedBy).2 = .ok later) ∨
    (∃ risk reason ttl, operation = .request operation.now later.taskId later.tool
        later.arguments risk reason later.policy ttl ∧
      (store.request identities operation.now later.taskId later.tool later.arguments risk
        reason later.policy ttl).2 = .ok place ∧
      store.requests.length = place ∧ later.status = .pending ∧
      later.expiresAt = some (operation.now + ttl.getD store.defaultTtl) ∧
      ∀ (other : Nat) (existing : ApprovalRequest),
        (operation.apply identities store).requests[other]? = some existing →
        existing.status = .pending → existing.taskId = later.taskId →
        existing.tool = later.tool → existing.argumentsHash = later.argumentsHash →
        other = place) := by
  cases operation with
  | request now taskId tool arguments risk reason policy ttl =>
      have swept := @sweepExpired_lapses now store
      rcases @request_cases identities now store taskId tool arguments risk reason policy ttl
        with ⟨same, _⟩ | ⟨created, unmatched⟩
      · simp only [StoreOperation.apply, same] at found
        exact .inl (exists_of_forall₂ swept found)
      · simp only [StoreOperation.apply, created] at found ⊢
        rcases getElem?_concat found with ⟨_, old⟩ | ⟨rfl, rfl⟩
        · exact .inl (exists_of_forall₂ swept old)
        · refine .inr (.inr ⟨risk, reason, ttl, rfl, ?_, swept.length_eq, rfl, rfl, ?_⟩)
          · exact (congrArg Prod.snd created).trans (congrArg Except.ok swept.length_eq)
          · intro other existing present pending sameTask sameTool sameHash
            rcases getElem?_concat present with ⟨_, old⟩ | ⟨same, _⟩
            · apply absurd sameHash
              apply unmatched existing (List.mem_of_getElem? old) _ sameTool
              simp [isPendingFor, pending, sameTask]
            · exact same
  | decide now decidedPlace approved decidedBy =>
      rcases @decide_cases identities now store decidedPlace approved decidedBy with
        ⟨error, _, lapses⟩ | ⟨request, present, pending, inTime, decided⟩
      · exact .inl (exists_of_forall₂ lapses found)
      · simp only [StoreOperation.apply, decided] at found
        by_cases same : decidedPlace = place
        · subst same
          have bound := (List.getElem?_eq_some_iff.mp present).1
          rw [List.getElem?_set_self bound] at found
          cases Option.some.inj found
          exact .inr (.inl ⟨approved, decidedBy, request, rfl, present, inTime,
            .decided pending inTime approved decidedBy, rfl, congrArg Prod.snd decided⟩)
        · rw [List.getElem?_set_ne same] at found
          exact .inl ⟨later, found, .inl rfl⟩
  | verify now verifiedPlace tool arguments policy =>
      exact .inl (exists_of_forall₂ (verify_lapses store ..) found)
  | findValid now taskId tool arguments policy =>
      exact .inl (exists_of_forall₂ (findValid_lapses store ..) found)
  | pending now taskId => exact .inl (exists_of_forall₂ (sweepExpired_lapses store) found)
  | sweepExpired now => exact .inl (exists_of_forall₂ (sweepExpired_lapses store) found)

/-! ## Histories -/

/-- What every operation of a history keeps of a request stays with it. -/
theorem after_keeps {Holds : ApprovalRequest → Prop} {store : ApprovalStore}
    {history : List StoreOperation} {place : Nat} {request : ApprovalRequest}
    (kept : ∀ operation ∈ history, ∀ before later, Evolves operation.now before later →
      Holds before → Holds later)
    (present : store.requests[place]? = some request) (holds : Holds request) :
    ∃ later, (store.after identities history).requests[place]? = some later ∧
      Holds later := by
  induction history generalizing store request with
  | nil => exact ⟨request, present, holds⟩
  | cons operation rest induction =>
      rcases (apply_changes store operation).after present with ⟨middle, found, evolves⟩
      exact induction (fun other member => kept other (.tail _ member)) found
        (kept operation (.head _) request middle evolves holds)

/-- A request that was made is there, with its action and its expiry. -/
theorem Made.present {store : ApprovalStore} {history : List StoreOperation} {place : Nat}
    {taskId tool policy : String} {arguments : Arguments} {expiry : Int}
    (made : store.Made identities history place taskId tool arguments policy expiry) :
    ∃ request, (store.after identities history).requests[place]? = some request ∧
      request.taskId = taskId ∧ request.tool = tool ∧ request.arguments = arguments ∧
      request.policy = policy ∧ request.expiresAt = some expiry := by
  rcases made with ⟨earlier, now, risk, reason, ttl, later, rfl, returned, fresh, rfl⟩
  rcases @request_cases identities now (store.after identities earlier) taskId tool arguments
    risk reason policy ttl with ⟨_, old⟩ | ⟨created, _⟩
  · have bound := old place returned
    omega
  · have sameLength :=
      (@sweepExpired_lapses now (store.after identities earlier)).length_eq
    rw [after_append]
    apply @after_keeps identities _ _ later
    · intro operation _ before later evolves holds
      have same := evolves.sameAction
      rw [same.taskId, same.tool, same.arguments, same.policy, evolves.expiresAt]
      exact holds
    · rw [StoreOperation.apply, created, ← fresh, sameLength]
      exact List.getElem?_concat_length
    · exact ⟨rfl, rfl, rfl, rfl, rfl⟩

/-- A request that was approved still is. -/
theorem Approved.present {store : ApprovalStore} {history : List StoreOperation}
    {place : Nat} {decided : Int}
    (approved : store.Approved identities history place decided) :
    ∃ request, (store.after identities history).requests[place]? = some request ∧
      request.status = .approved := by
  rcases approved with ⟨earlier, decidedBy, later, request, rfl, returned⟩
  rcases @decide_cases identities decided (store.after identities earlier) place true decidedBy
    with ⟨error, raised, _⟩ | ⟨request, present, _, _, result⟩
  · rw [raised] at returned
    cases returned
  · rw [after_append]
    apply @after_keeps identities _ _ later
    · intro operation _ before later evolves holds
      rw [evolves.eq_of_final (by simp [holds]), holds]
    · rw [StoreOperation.apply, result]
      exact List.getElem?_set_self (List.getElem?_eq_some_iff.mp present).1
    · rfl

/-- The history tells of every request who made it, and of an approved one who
approved it in time. -/
theorem recorded_after {store : ApprovalStore} (empty : store.requests = [])
    (history : List StoreOperation) {place : Nat} {request : ApprovalRequest}
    (present : (store.after identities history).requests[place]? = some request) :
    ∃ expiry, request.expiresAt = some expiry ∧
      store.Made identities history place request.taskId request.tool request.arguments
        request.policy expiry ∧
      (request.status = .approved →
        ∃ decided, store.Approved identities history place decided ∧ decided < expiry) := by
  induction history using List.reverseRecOn generalizing place request with
  | nil => simp [after, empty] at present
  | append_singleton history operation induction =>
      rw [after_append] at present
      rcases apply_cases _ operation present with ⟨before, found, lapses⟩ |
        ⟨approved, decidedBy, before, same, found, inTime, evolves, status, returned⟩ |
        ⟨risk, reason, ttl, same, returned, fresh, pending, expires, _⟩
      · rcases induction found with ⟨expiry, expires, made, decided⟩
        have same := lapses.evolves.sameAction
        refine ⟨expiry, lapses.evolves.expiresAt.trans expires, ?_, fun isApproved => ?_⟩
        · rw [same.taskId, same.tool, same.arguments, same.policy]
          exact made.append [operation]
        · rw [eq_of_lapses lapses (.inl isApproved)] at isApproved
          rcases decided isApproved with ⟨moment, approved, before⟩
          exact ⟨moment, approved.append [operation], before⟩
      · rcases induction found with ⟨expiry, expires, made, _⟩
        have action := evolves.sameAction
        refine ⟨expiry, evolves.expiresAt.trans expires, ?_, fun isApproved => ?_⟩
        · rw [action.taskId, action.tool, action.arguments, action.policy]
          exact made.append [operation]
        · have granted : approved = true := by
            rw [isApproved] at status
            cases approved with
            | true => rfl
            | false => cases status
          subst granted
          refine ⟨operation.now, ⟨history, decidedBy, [], request, ?_, returned⟩, ?_⟩
          · rw [← same]
          · simpa [hasExpired, expires] using inTime
      · refine ⟨_, expires, ⟨history, _, risk, reason, ttl, [], ?_, returned, fresh, rfl⟩,
          fun isApproved => ?_⟩
        · rw [← same]
        · rw [pending] at isApproved
          cases isApproved

theorem onePending_after {store : ApprovalStore} (empty : store.requests = [])
    (history : List StoreOperation) : (store.after identities history).OnePending := by
  induction history using List.reverseRecOn with
  | nil => simp [OnePending, after, empty]
  | append_singleton history operation induction =>
      rw [after_append]
      intro left right first second atLeft atRight pending alsoPending sameTask sameTool sameHash
      rcases apply_cases _ operation atLeft with ⟨before, found, lapses⟩ |
        ⟨approved, _, _, _, _, _, _, status, _⟩ | ⟨_, _, _, _, _, _, _, _, only⟩
      · rcases apply_cases _ operation atRight with ⟨other, foundOther, lapsesOther⟩ |
          ⟨approved, _, _, _, _, _, _, status, _⟩ | ⟨_, _, _, _, _, _, _, _, only⟩
        · rw [← eq_of_lapses lapses (.inr pending)] at found
          rw [← eq_of_lapses lapsesOther (.inr alsoPending)] at foundOther
          exact induction left right first second found foundOther pending alsoPending sameTask
            sameTool sameHash
        · rw [alsoPending] at status
          cases approved <;> cases status
        · exact only left first atLeft pending sameTask sameTool sameHash
      · rw [pending] at status
        cases approved <;> cases status
      · exact (only right second atRight alsoPending sameTask.symm sameTool.symm
          sameHash.symm).symm

/-! ## Answers -/

private theorem approves_of_lapses {request later : ApprovalRequest} {tool wanted : String}
    (lapses : Lapses now request later) (approves : later.approves tool wanted = true) :
    later = request := by
  apply eq_of_lapses lapses
  simp only [ApprovalRequest.approves, Bool.and_eq_true, beq_iff_eq] at approves
  exact .inl approves.1.1

private theorem approves_expireOne {request : ApprovalRequest} {tool wanted : String}
    (approves : request.approves tool wanted = true) : expireOne now request = request := by
  simp only [ApprovalRequest.approves, Bool.and_eq_true, beq_iff_eq] at approves
  simp [expireOne, approves.1.1]

theorem verify_iff {store : ApprovalStore} {place : Nat} {tool policy : String}
    {arguments : Arguments} :
    (store.verify identities now place tool arguments policy).2 = true ↔
      ∃ request, store.requests[place]? = some request ∧
        request.approves tool (approvalHash identities.sha256 tool arguments policy) =
          true := by
  constructor
  · intro verified
    rcases verify_true verified with ⟨later, found, approves⟩
    rcases exists_of_forall₂ (verify_lapses store ..) found with ⟨request, present, lapses⟩
    rw [approves_of_lapses lapses approves] at approves
    exact ⟨request, present, approves⟩
  · rintro ⟨request, present, approves⟩
    simp [verify, present, approves_expireOne approves, approves]

private theorem findValidIn_isSome {taskId tool wanted : String}
    {requests : List ApprovalRequest} {request : ApprovalRequest} (member : request ∈ requests)
    (sameTask : request.taskId = taskId) (approves : request.approves tool wanted = true) :
    (findValidIn now taskId tool wanted requests).2.isSome := by
  induction requests with
  | nil => cases member
  | cons first rest induction =>
      simp only [findValidIn]
      rcases List.mem_cons.mp member with same | member
      · subst same
        have sameTool : request.tool = tool := by
          simp only [ApprovalRequest.approves, Bool.and_eq_true, beq_iff_eq] at approves
          exact approves.1.2
        simp [sameTask, sameTool, approves_expireOne approves, approves]
      · have found := induction member
        split
        · simpa using found
        · split
          · rfl
          · simpa using found

/-- `find_valid` returns approved requests of the task only, and one if there is one. -/
theorem findValid_eq_some {store : ApprovalStore} {taskId tool policy : String}
    {arguments : Arguments} {place : Nat}
    (found : (store.findValid identities now taskId tool arguments policy).2 = some place) :
    ∃ request, store.requests[place]? = some request ∧ request.taskId = taskId ∧
      request.approves tool (approvalHash identities.sha256 tool arguments policy) = true := by
  rcases findValid_some found with ⟨later, present, sameTask, approves⟩
  rcases exists_of_forall₂ (findValid_lapses store ..) present with ⟨request, stored, lapses⟩
  rw [approves_of_lapses lapses approves] at sameTask approves
  exact ⟨request, stored, sameTask, approves⟩

/-- An approved request of the hash is one that the history grants the action by. -/
theorem grants_iff {store : ApprovalStore} (empty : store.requests = [])
    (history : List StoreOperation) {tool policy : String} {arguments : Arguments}
    (separates : ∀ request ∈ (store.after identities history).requests,
      Separates identities.sha256
        (approvalDocument request.tool request.arguments request.policy)
        (approvalDocument tool arguments policy))
    (place : Nat) (taskId : String) :
    store.Grants identities history place taskId tool arguments policy ↔
      ∃ request, (store.after identities history).requests[place]? = some request ∧
        request.taskId = taskId ∧
        request.approves tool (approvalHash identities.sha256 tool arguments policy) =
          true := by
  have valid := after_isValid identities empty history
  constructor
  · rintro ⟨made, expiry, decided, isMade, same, isApproved, _⟩
    rcases isMade.present with ⟨request, present, sameTask, sameTool, sameArguments,
      samePolicy, _⟩
    rcases isApproved.present with ⟨other, found, approved⟩
    cases Option.some.inj (present.symm.trans found)
    refine ⟨request, present, sameTask, ?_⟩
    have bound := (valid request (List.mem_of_getElem? present)).bound
    unfold IsBound at bound
    rw [sameTool, sameArguments, samePolicy,
      approvalHash_eq_of_sameArguments identities.sha256 tool policy same] at bound
    simp [ApprovalRequest.approves, approved, sameTool, bound]
  · rintro ⟨request, present, rfl, approves⟩
    have member := List.mem_of_getElem? present
    have exact := (valid request member).exact_of_approves approves (separates request member)
    rcases recorded_after empty history present with ⟨expiry, _, made, approved⟩
    rcases approved exact.1.1 with ⟨decided, isApproved, inTime⟩
    rw [exact.2.1, exact.2.2.2] at made
    exact ⟨request.arguments, expiry, decided, made, exact.2.2.1, isApproved, inTime⟩

/-- The request is EXPIRED, or it will be when it is looked at from the moment on. -/
def IsOver (moment : Int) (request : ApprovalRequest) : Prop :=
  request.status = .expired ∨
    (request.status = .pending ∧ request.hasExpired moment = true)

private theorem IsOver.evolves {moment : Int} {request later : ApprovalRequest}
    (ended : IsOver moment request) (clock : moment ≤ now)
    (evolves : Evolves now request later) : IsOver moment later := by
  cases evolves with
  | kept => exact ended
  | expired _ => exact .inl rfl
  | decided pending inTime approved decidedBy =>
      rcases ended with expired | ⟨_, reached⟩
      · rw [pending] at expired
        cases expired
      · unfold hasExpired at reached inTime
        split at reached
        · next expiry expires =>
            simp only [expires, decide_eq_true_eq, decide_eq_false_iff_not] at reached inTime
            omega
        · cases reached

/-- A request whose expiry was reached while it was pending is not approved any more. -/
theorem not_approved_after {store : ApprovalStore} {moment : Int} {place : Nat}
    {request final : ApprovalRequest} {later : List StoreOperation}
    (present : store.requests[place]? = some request) (pending : request.status = .pending)
    (expired : request.hasExpired moment = true)
    (clock : ∀ operation ∈ later, moment ≤ operation.now)
    (found : (store.after identities later).requests[place]? = some final) :
    final.status ≠ .approved := by
  have ended : IsOver moment request := .inr ⟨pending, expired⟩
  have stays : ∀ operation ∈ later, ∀ before after, Evolves operation.now before after →
      IsOver moment before → IsOver moment after :=
    fun operation member _ _ evolves ended => ended.evolves (clock operation member) evolves
  rcases @after_keeps identities _ store later place request stays present ended with
    ⟨other, same, holds⟩
  cases Option.some.inj (same.symm.trans found)
  rcases holds with expired | ⟨pending, _⟩
  · simp [expired]
  · simp [pending]

/-- What the store answers, at every moment of every history, about an action whose
hash tells it apart from those of the requests. -/
theorem binding_of_history (identities : Identities) {store : ApprovalStore}
    (empty : store.requests = []) (history : List StoreOperation) {tool policy : String}
    {arguments : Arguments}
    (separates : ∀ request ∈ (store.after identities history).requests,
      Separates identities.sha256
        (approvalDocument request.tool request.arguments request.policy)
        (approvalDocument tool arguments policy)) :
    (∀ now place,
      ((store.after identities history).verify identities now place tool arguments policy).2 =
          true ↔
        ∃ taskId, store.Grants identities history place taskId tool arguments policy) ∧
    (∀ now taskId place,
      ((store.after identities history).findValid identities now taskId tool arguments
          policy).2 = some place →
        store.Grants identities history place taskId tool arguments policy) ∧
    (∀ now taskId place,
      store.Grants identities history place taskId tool arguments policy →
        ((store.after identities history).findValid identities now taskId tool arguments
          policy).2.isSome) ∧
    (∀ (moment : Int) (place : Nat) (request : ApprovalRequest)
        (later : List StoreOperation) (final : ApprovalRequest),
      (store.after identities history).requests[place]? = some request →
        request.status = .pending → request.hasExpired moment = true →
        (∀ operation ∈ later, moment ≤ operation.now) →
        (store.after identities (history ++ later)).requests[place]? = some final →
        final.status ≠ .approved) ∧
    (store.after identities history).OnePending := by
  refine ⟨?_, ?_, ?_, ?_, onePending_after empty history⟩
  · intro now place
    rw [verify_iff]
    constructor
    · rintro ⟨request, present, approves⟩
      exact ⟨request.taskId, (grants_iff empty history separates place _).mpr
        ⟨request, present, rfl, approves⟩⟩
    · rintro ⟨taskId, grants⟩
      rcases (grants_iff empty history separates place taskId).mp grants with
        ⟨request, present, _, approves⟩
      exact ⟨request, present, approves⟩
  · intro now taskId place found
    exact (grants_iff empty history separates place taskId).mpr (findValid_eq_some found)
  · intro now taskId place grants
    rcases (grants_iff empty history separates place taskId).mp grants with
      ⟨request, present, sameTask, approves⟩
    exact findValidIn_isSome (List.mem_of_getElem? present) sameTask approves
  · intro moment place request later final present pending expired clock found
    rw [after_append] at found
    exact not_approved_after present pending expired clock found

/-- A request that is approved before its expiry. -/
def approvedInTime : List StoreOperation :=
  [.request 0 "task" "write_file" [] "HIGH" "asked" "default" none,
    .decide 5 0 true "operator"]

theorem verified_of_approvedInTime :
    ((({} : ApprovalStore).after ⟨id, fun _ => "approval"⟩ approvedInTime).verify
      ⟨id, fun _ => "approval"⟩ 6 0 "write_file" [] "default").2 = true := by
  have separates : ∀ request ∈
      (({} : ApprovalStore).after ⟨id, fun _ => "approval"⟩ approvedInTime).requests,
      Separates id (approvalDocument request.tool request.arguments request.policy)
        (approvalDocument "write_file" [] "default") := by
    intro request member
    rw [List.mem_singleton.mp member]
    exact fun _ => rfl
  apply ((binding_of_history ⟨id, fun _ => "approval"⟩ rfl approvedInTime separates).1 6 0).mpr
  exact ⟨"task", [], 900000000, 5,
    ⟨[], 0, "HIGH", "asked", none, [.decide 5 0 true "operator"], rfl, rfl, rfl, rfl⟩, rfl,
    ⟨[.request 0 "task" "write_file" [] "HIGH" "asked" "default" none], "operator", [], _,
      rfl, rfl⟩, by decide⟩

end ApprovalStore

end Raphael.Security
