import Raphael.Core.Domain
import Raphael.Core.Errors

/-! # The approval store

Human approval requests bound to exact actions. A request is identified by its
place in the store, for none is ever removed, and each operation is taken at one
reading of the clock, in microseconds. -/

namespace Raphael.Security

open Core

/-- What the store takes from outside: the digest, and the id that is drawn for
the request at each place. -/
structure Identities where
  sha256 : String → String
  approvalId : Nat → String

/-- `approval_id[:8]`. -/
def Identities.shortId (identities : Identities) (place : Nat) : String :=
  Text.take 8 (identities.approvalId place)

/-- What an approval hash is computed from. -/
def approvalDocument (tool : String) (arguments : Arguments) (policy : String) : Json :=
  .obj [("tool", .str tool), ("arguments", .obj arguments), ("policy", .str policy)]

def approvalHash (sha256 : String → String) (tool : String) (arguments : Arguments)
    (policy : String) : String :=
  sha256 (approvalDocument tool arguments policy).canonicalText

structure ApprovalRequest where
  taskId : String := ""
  tool : String := ""
  arguments : Arguments := []
  argumentsHash : String := ""
  risk : String := ""
  reason : String := ""
  policy : String := ""
  status : ApprovalStatus := .pending
  expiresAt : Option Int := none
  decidedAt : Option Int := none
  decidedBy : String := ""

namespace ApprovalRequest

/-- The expiry has been reached. -/
def hasExpired (request : ApprovalRequest) (now : Int) : Bool :=
  match request.expiresAt with
  | some expiry => expiry ≤ now
  | none => false

/-- `_expire_one`. -/
def expireOne (now : Int) (request : ApprovalRequest) : ApprovalRequest :=
  if request.status == .pending && request.hasExpired now then
    { request with status := .expired }
  else request

/-- What `verify` asks of a request. -/
def approves (request : ApprovalRequest) (tool wanted : String) : Bool :=
  request.status == .approved && request.tool == tool && request.argumentsHash == wanted

/-- A request that `pending` lists for a task; no task means every task. -/
def isPendingFor (taskId : String) (request : ApprovalRequest) : Bool :=
  request.status == .pending && (taskId == "" || request.taskId == taskId)

end ApprovalRequest

structure ApprovalStore where
  requests : List ApprovalRequest := []
  defaultTtl : Int := 900000000

namespace ApprovalStore

open ApprovalRequest

variable (identities : Identities) (now : Int)

def get (store : ApprovalStore) (place : Nat) : Option ApprovalRequest :=
  store.requests[place]?

def sweepExpired (store : ApprovalStore) : ApprovalStore :=
  { store with requests := store.requests.map (expireOne now) }

def pending (store : ApprovalStore) (taskId : String) :
    ApprovalStore × List ApprovalRequest :=
  let swept := store.sweepExpired now
  (swept, swept.requests.filter (isPendingFor taskId))

/-- The first request that `pending` lists with the same tool and hash is returned
again; otherwise a new one is made. -/
def request (store : ApprovalStore) (taskId tool : String) (arguments : Arguments)
    (risk reason policy : String) (ttl : Option Int) :
    ApprovalStore × Except Error Nat :=
  let wanted := approvalHash identities.sha256 tool arguments policy
  let swept := store.sweepExpired now
  let existing := swept.requests.findIdx? fun existing =>
    isPendingFor taskId existing && existing.tool == tool &&
      existing.argumentsHash == wanted
  match existing with
  | some place => (swept, .ok place)
  | none =>
      let ttl := ttl.getD store.defaultTtl
      if ttl ≤ 0 then (swept, .error (.domainValidation "approval TTL must be positive"))
      else
        let created : ApprovalRequest :=
          { taskId
            tool
            arguments
            argumentsHash := wanted
            risk
            reason
            policy
            expiresAt := some (now + ttl) }
        ({ swept with requests := swept.requests ++ [created] },
          .ok swept.requests.length)

def verify (store : ApprovalStore) (place : Nat) (tool : String) (arguments : Arguments)
    (policy : String) : ApprovalStore × Bool :=
  match store.requests[place]? with
  | none => (store, false)
  | some request =>
      let request := expireOne now request
      ({ store with requests := store.requests.set place request },
        request.approves tool (approvalHash identities.sha256 tool arguments policy))

/-- `find_valid` over the remaining requests: what they become, and the place of
the one it returns. -/
def findValidIn (taskId tool wanted : String) :
    List ApprovalRequest → List ApprovalRequest × Option Nat
  | [] => ([], none)
  | request :: rest =>
      if request.taskId != taskId || request.tool != tool then
        let (rest, found) := findValidIn taskId tool wanted rest
        (request :: rest, found.map (· + 1))
      else
        let request := expireOne now request
        if request.approves tool wanted then (request :: rest, some 0)
        else
          let (rest, found) := findValidIn taskId tool wanted rest
          (request :: rest, found.map (· + 1))

def findValid (store : ApprovalStore) (taskId tool : String) (arguments : Arguments)
    (policy : String) : ApprovalStore × Option Nat :=
  let wanted := approvalHash identities.sha256 tool arguments policy
  let (requests, found) := findValidIn now taskId tool wanted store.requests
  ({ store with requests }, found)

def decide (store : ApprovalStore) (place : Nat) (approved : Bool) (decidedBy : String) :
    ApprovalStore × Except Error ApprovalRequest :=
  let name := Text.repr (identities.approvalId place)
  match store.requests[place]? with
  | none => (store, .error (.domainValidation ("unknown approval " ++ name)))
  | some request =>
      let request := expireOne now request
      if request.status != .pending then
        ({ store with requests := store.requests.set place request },
          .error (.domainValidation
            ("approval " ++ name ++ " is already " ++ request.status.value)))
      else
        let decided : ApprovalRequest :=
          { request with
            status := if approved then .approved else .denied
            decidedAt := some now
            decidedBy }
        ({ store with requests := store.requests.set place decided }, .ok decided)

end ApprovalStore

/-! ## Histories of a store -/

/-- One operation on the store, at one reading of the clock. -/
inductive StoreOperation
  | request (now : Int) (taskId tool : String) (arguments : Arguments)
      (risk reason policy : String) (ttl : Option Int)
  | decide (now : Int) (place : Nat) (approved : Bool) (decidedBy : String)
  | verify (now : Int) (place : Nat) (tool : String) (arguments : Arguments)
      (policy : String)
  | findValid (now : Int) (taskId tool : String) (arguments : Arguments)
      (policy : String)
  | pending (now : Int) (taskId : String)
  | sweepExpired (now : Int)

/-- The reading of the clock that the operation is taken at. -/
def StoreOperation.now : StoreOperation → Int
  | .request now _ _ _ _ _ _ _ | .decide now _ _ _ | .verify now _ _ _ _
  | .findValid now _ _ _ _ | .pending now _ | .sweepExpired now => now

/-- The store behind the operation, whether it raises or not. -/
def StoreOperation.apply (identities : Identities) (store : ApprovalStore) :
    StoreOperation → ApprovalStore
  | .request now taskId tool arguments risk reason policy ttl =>
      (store.request identities now taskId tool arguments risk reason policy ttl).1
  | .decide now place approved decidedBy =>
      (store.decide identities now place approved decidedBy).1
  | .verify now place tool arguments policy =>
      (store.verify identities now place tool arguments policy).1
  | .findValid now taskId tool arguments policy =>
      (store.findValid identities now taskId tool arguments policy).1
  | .pending now taskId => (store.pending now taskId).1
  | .sweepExpired now => store.sweepExpired now

/-- The store behind a history. -/
def ApprovalStore.after (identities : Identities) (store : ApprovalStore)
    (history : List StoreOperation) : ApprovalStore :=
  history.foldl (StoreOperation.apply identities) store

/-! ## What one operation does -/

/-- What an operation at `now` may make of a request. -/
inductive ApprovalRequest.Evolves (now : Int) (request : ApprovalRequest) :
    ApprovalRequest → Prop
  | kept : Evolves now request request
  | expired (pending : request.status = .pending) :
      Evolves now request { request with status := .expired }
  | decided (pending : request.status = .pending)
      (inTime : request.hasExpired now = false) (approved : Bool) (decidedBy : String) :
      Evolves now request
        { request with
          status := if approved then .approved else .denied
          decidedAt := some now
          decidedBy }

/-- The hash is that of the action the request is for. -/
def ApprovalRequest.IsBound (sha256 : String → String) (request : ApprovalRequest) : Prop :=
  request.argumentsHash =
    approvalHash sha256 request.tool request.arguments request.policy

/-- What a request is when it is made. -/
structure ApprovalRequest.IsFresh (sha256 : String → String) (request : ApprovalRequest) :
    Prop where
  bound : request.IsBound sha256
  pending : request.status = .pending
  expires : request.expiresAt.isSome

namespace ApprovalStore

open ApprovalRequest

variable {identities : Identities} {now : Int}

/-- The effect of one operation: every request evolves, and new ones may follow. -/
def Changes (identities : Identities) (now : Int) (store next : ApprovalStore) : Prop :=
  ∃ evolved created, List.Forall₂ (Evolves now) store.requests evolved ∧
    next.requests = evolved ++ created ∧
    ∀ request ∈ created, request.IsFresh identities.sha256

/-- What an operation other than `decide` may make of a request. -/
def Lapses (now : Int) (request later : ApprovalRequest) : Prop :=
  later = request ∨ later = expireOne now request

theorem evolves_expireOne (request : ApprovalRequest) :
    Evolves now request (expireOne now request) := by
  unfold expireOne
  split
  · next due =>
      simp only [Bool.and_eq_true, beq_iff_eq] at due
      exact .expired due.1
  · exact .kept

theorem Lapses.evolves {request later : ApprovalRequest} (lapses : Lapses now request later) :
    Evolves now request later := by
  rcases lapses with rfl | rfl
  · exact .kept
  · exact evolves_expireOne request

private theorem lapses_refl (requests : List ApprovalRequest) :
    List.Forall₂ (Lapses now) requests requests :=
  List.forall₂_same.mpr fun _ _ => .inl rfl

private theorem forall₂_set {Related : ApprovalRequest → ApprovalRequest → Prop}
    (reflexive : ∀ request, Related request request) {requests : List ApprovalRequest}
    {place : Nat} {request later : ApprovalRequest}
    (present : requests[place]? = some request) (related : Related request later) :
    List.Forall₂ Related requests (requests.set place later) := by
  induction requests generalizing place with
  | nil => exact .nil
  | cons first rest induction =>
      cases place with
      | zero =>
          simp only [List.getElem?_cons_zero, Option.some.injEq] at present
          subst present
          exact .cons related (List.forall₂_same.mpr fun request _ => reflexive request)
      | succ place => exact .cons (reflexive first) (induction present)

private theorem lapses_set {requests : List ApprovalRequest} {place : Nat}
    {request : ApprovalRequest} (present : requests[place]? = some request) :
    List.Forall₂ (Lapses now) requests (requests.set place (expireOne now request)) :=
  forall₂_set (fun _ => .inl rfl) present (.inr rfl)

theorem sweepExpired_lapses (store : ApprovalStore) :
    List.Forall₂ (Lapses now) store.requests (store.sweepExpired now).requests := by
  simp only [sweepExpired, List.forall₂_map_right_iff]
  exact List.forall₂_same.mpr fun _ _ => .inr rfl

theorem verify_lapses (store : ApprovalStore) (place : Nat) (tool : String)
    (arguments : Arguments) (policy : String) :
    List.Forall₂ (Lapses now) store.requests
      (store.verify identities now place tool arguments policy).1.requests := by
  unfold verify
  split
  · exact lapses_refl _
  · next request present => exact lapses_set present

private theorem findValidIn_lapses (taskId tool wanted : String)
    (requests : List ApprovalRequest) :
    List.Forall₂ (Lapses now) requests (findValidIn now taskId tool wanted requests).1 := by
  induction requests with
  | nil => exact .nil
  | cons request rest induction =>
      simp only [findValidIn]
      split
      · exact .cons (.inl rfl) induction
      · split
        · exact .cons (.inr rfl) (lapses_refl rest)
        · exact .cons (.inr rfl) induction

theorem findValid_lapses (store : ApprovalStore) (taskId tool : String)
    (arguments : Arguments) (policy : String) :
    List.Forall₂ (Lapses now) store.requests
      (store.findValid identities now taskId tool arguments policy).1.requests :=
  findValidIn_lapses _ _ _ _

/-- `request` returns a request that was there, raises, or makes one that none of the
pending ones stands for. -/
theorem request_cases (store : ApprovalStore) (taskId tool : String) (arguments : Arguments)
    (risk reason policy : String) (ttl : Option Int) :
    let called := store.request identities now taskId tool arguments risk reason policy ttl
    let wanted := approvalHash identities.sha256 tool arguments policy
    let swept := store.sweepExpired now
    let created : ApprovalRequest :=
      { taskId, tool, arguments, argumentsHash := wanted, risk, reason, policy,
        expiresAt := some (now + ttl.getD store.defaultTtl) }
    (called.1 = swept ∧ ∀ place, called.2 = .ok place → place < store.requests.length) ∨
    (called = ({ swept with requests := swept.requests ++ [created] },
        .ok store.requests.length) ∧
      ∀ existing ∈ swept.requests, isPendingFor taskId existing = true →
        existing.tool = tool → existing.argumentsHash ≠ wanted) := by
  have sameLength : (store.sweepExpired now).requests.length = store.requests.length := by
    simp [sweepExpired]
  dsimp only
  unfold request
  dsimp only
  split
  · next place found =>
      refine .inl ⟨rfl, fun other same => ?_⟩
      cases same
      rw [← sameLength]
      exact (List.findIdx?_eq_some_iff_getElem.mp found).1
  · next missing =>
      split
      · exact .inl ⟨rfl, nofun⟩
      · refine .inr ⟨by rw [sameLength], ?_⟩
        intro existing present pending sameTool sameHash
        have differs := List.findIdx?_eq_none_iff.mp missing existing present
        simp [pending, sameTool, sameHash] at differs

/-- `decide` raises and only lets the request lapse, or it decides one that is pending
and has not expired. -/
theorem decide_cases (store : ApprovalStore) (place : Nat) (approved : Bool)
    (decidedBy : String) :
    let called := store.decide identities now place approved decidedBy
    (∃ error, called.2 = .error error ∧
      List.Forall₂ (Lapses now) store.requests called.1.requests) ∨
    (∃ request, store.requests[place]? = some request ∧ request.status = .pending ∧
      request.hasExpired now = false ∧
      let decided : ApprovalRequest :=
        { request with
          status := if approved then .approved else .denied
          decidedAt := some now
          decidedBy }
      called = ({ store with requests := store.requests.set place decided },
        .ok decided)) := by
  simp only [decide]
  split
  · exact .inl ⟨_, rfl, lapses_refl _⟩
  · next request present =>
      split
      · exact .inl ⟨_, rfl, lapses_set present⟩
      · next still =>
          -- A request that is pending behind `_expire_one` is the one before it.
          have unchanged : expireOne now request = request ∧
              request.status = .pending ∧ request.hasExpired now = false := by
            unfold expireOne at still ⊢
            split at still
            · simp at still
            · next notDue =>
                have pending : request.status = .pending := by simpa using still
                simp_all
          rw [unchanged.1]
          exact .inr ⟨request, present, unchanged.2.1, unchanged.2.2, rfl⟩

theorem changes_of_lapses {store next : ApprovalStore}
    (lapses : List.Forall₂ (Lapses now) store.requests next.requests) :
    Changes identities now store next :=
  ⟨next.requests, [], lapses.imp fun _ _ => Lapses.evolves, (List.append_nil _).symm,
    by simp⟩

theorem sweepExpired_changes (store : ApprovalStore) :
    Changes identities now store (store.sweepExpired now) :=
  changes_of_lapses (sweepExpired_lapses store)

theorem request_changes (store : ApprovalStore) (taskId tool : String)
    (arguments : Arguments) (risk reason policy : String) (ttl : Option Int) :
    Changes identities now store
      (store.request identities now taskId tool arguments risk reason policy ttl).1 := by
  rcases @request_cases identities now store taskId tool arguments risk reason policy ttl with
    ⟨swept, _⟩ | ⟨created, _⟩
  · rw [swept]
    exact sweepExpired_changes store
  · rw [created]
    refine ⟨_, _, (sweepExpired_lapses store).imp fun _ _ => Lapses.evolves, rfl, ?_⟩
    intro request member
    rw [List.mem_singleton.mp member]
    exact ⟨rfl, rfl, rfl⟩

theorem verify_changes (store : ApprovalStore) (place : Nat) (tool : String)
    (arguments : Arguments) (policy : String) :
    Changes identities now store
      (store.verify identities now place tool arguments policy).1 :=
  changes_of_lapses (verify_lapses store place tool arguments policy)

theorem findValid_changes (store : ApprovalStore) (taskId tool : String)
    (arguments : Arguments) (policy : String) :
    Changes identities now store
      (store.findValid identities now taskId tool arguments policy).1 :=
  changes_of_lapses (findValid_lapses store taskId tool arguments policy)

theorem decide_changes (store : ApprovalStore) (place : Nat) (approved : Bool)
    (decidedBy : String) :
    Changes identities now store
      (store.decide identities now place approved decidedBy).1 := by
  rcases @decide_cases identities now store place approved decidedBy with
    ⟨error, _, lapses⟩ | ⟨request, present, pending, inTime, decided⟩
  · exact changes_of_lapses lapses
  · rw [decided]
    exact ⟨_, [], forall₂_set (fun _ => .kept) present
      (.decided pending inTime approved decidedBy), (List.append_nil _).symm, by simp⟩

/-- What any operation does to the store. -/
theorem apply_changes (store : ApprovalStore) (operation : StoreOperation) :
    Changes identities operation.now store (operation.apply identities store) := by
  cases operation with
  | request now taskId tool arguments risk reason policy ttl =>
      exact request_changes store taskId tool arguments risk reason policy ttl
  | decide now place approved decidedBy => exact decide_changes store place approved decidedBy
  | verify now place tool arguments policy =>
      exact verify_changes store place tool arguments policy
  | findValid now taskId tool arguments policy =>
      exact findValid_changes store taskId tool arguments policy
  | pending now taskId => exact sweepExpired_changes store
  | sweepExpired now => exact sweepExpired_changes store

end ApprovalStore

end Raphael.Security
