import Raphael.Foundation.StepSystem
import Raphael.Persistence.SnapshotTable
import Raphael.Security.ApprovalStore

/-! # Concurrent calls on a stored approval store

Any number of calls on one store over a repository. A step performs at most one
repository call; between two of them a call has nothing but its own copies. A call
that holds the lock keeps it over all its steps. -/

namespace Raphael.Security

open Core Foundation Persistence

structure StoredApproval extends ApprovalRequest where
  id : String
  updatedAt : Int

instance : Entity StoredApproval where
  id := StoredApproval.id
  updatedAt := StoredApproval.updatedAt
  touch now approval := { approval with updatedAt := now }
  id_touch _ _ := rfl

namespace StoredApproval

/-- `_expire_one` changes the copy, and saves it. -/
def isDue (approval : StoredApproval) (now : Int) : Bool :=
  approval.status == .pending && approval.hasExpired now

def expired (approval : StoredApproval) : StoredApproval :=
  { approval with status := .expired }

def decided (approval : StoredApproval) (now : Int) (approved : Bool)
    (decidedBy : String) : StoredApproval :=
  { approval with
    status := if approved then .approved else .denied
    decidedAt := some now
    decidedBy := decidedBy }

end StoredApproval

/-- What a call returns or raises. -/
inductive StoreAnswer
  | decided (result : Except Error StoredApproval)
  | verified (accepted : Bool)
  | listed (approvals : List StoredApproval)
  | swept (count : Nat)
  | waited (decision : PermissionDecision) (reason : String)

/-- What a sweep is made for: `pending` makes it under the lock. -/
inductive SweepPurpose
  | sweepExpired
  | pending (taskId : String)
  | awaiting (approvalId reason : String)

def SweepPurpose.locks : SweepPurpose → Bool
  | .pending _ => true
  | _ => false

/-- Where a call stands. -/
inductive StorePhase
  /-- `decide` has the lock and loads the request. -/
  | deciding (approvalId : String) (approved : Bool) (decidedBy : String)
  | verifying (approvalId tool : String) (arguments : Arguments) (policy : String)
  /-- The copy is to be saved, under the lock. -/
  | saving (approval : StoredApproval) (answer : StoredApproval → StoreAnswer)
  | sweep (purpose : SweepPurpose)
  | sweeping (purpose : SweepPurpose) (rest : List StoredApproval) (count : Nat)
  /-- `pending` lists the requests again. -/
  | relisting (taskId : String)
  /-- `await_approval` gets its request. -/
  | getting (approvalId reason : String)
  | waiting (approvalId reason : String)
  | finished (answer : StoreAnswer)

structure ApprovalCalls (Call : Type u) where
  table : SnapshotTable StoredApproval
  phase : Call → Option StorePhase
  lock : Option Call

inductive StoreAction (Call : Type u)
  | decide (call : Call) (approvalId : String) (approved : Bool) (decidedBy : String)
  | verify (call : Call) (approvalId tool : String) (arguments : Arguments)
      (policy : String)
  | pending (call : Call) (taskId : String)
  | sweepExpired (call : Call)
  | awaitApproval (call : Call) (approvalId reason : String)
  /-- The call goes on over its next repository call, at a reading of the clock. -/
  | advance (call : Call) (now : Int)
  /-- The wait is over: the deadline has passed, or the task was cancelled. -/
  | stopWaiting (call : Call) (cancelled : Bool)

namespace ApprovalCalls

variable {Call : Type u} [DecidableEq Call]

def start (table : SnapshotTable StoredApproval) : ApprovalCalls Call where
  table := table
  phase := fun _ => none
  lock := none

def moveTo (state : ApprovalCalls Call) (call : Call) (phase : StorePhase) :
    ApprovalCalls Call :=
  { state with phase := Function.update state.phase call (some phase) }

/-- The call gives the lock back, if it holds it, and ends. -/
def finish (state : ApprovalCalls Call) (call : Call) (answer : StoreAnswer) :
    ApprovalCalls Call :=
  moveTo { state with lock := if state.lock = some call then none else state.lock } call
    (.finished answer)

/-- A call begins, with the lock. -/
def beginLocked (state : ApprovalCalls Call) (call : Call) (phase : StorePhase) :
    Option (ApprovalCalls Call) :=
  match state.phase call, state.lock with
  | none, none => some (moveTo { state with lock := some call } call phase)
  | _, _ => none

def begin (state : ApprovalCalls Call) (call : Call) (phase : StorePhase) :
    Option (ApprovalCalls Call) :=
  match state.phase call with
  | none => some (state.moveTo call phase)
  | some _ => none

/-- `decide` behind `_load`. -/
def loadToDecide (state : ApprovalCalls Call) (call : Call) (now : Int)
    (approvalId : String) (approved : Bool) (decidedBy : String) : ApprovalCalls Call :=
  let already (status : ApprovalStatus) : StoreAnswer :=
    .decided (.error (.domainValidation
      ("approval " ++ Text.repr approvalId ++ " is already " ++ status.value)))
  match state.table.get approvalId with
  | none =>
      state.finish call (.decided (.error (.domainValidation
        ("unknown approval " ++ Text.repr approvalId))))
  | some approval =>
      if approval.isDue now then
        state.moveTo call (.saving approval.expired fun saved => already saved.status)
      else if approval.status == .pending then
        state.moveTo call (.saving (approval.decided now approved decidedBy)
          fun saved => .decided (.ok saved))
      else state.finish call (already approval.status)

/-- `verify` behind `_load`. -/
def loadToVerify (sha256 : String → String) (state : ApprovalCalls Call) (call : Call)
    (now : Int) (approvalId tool : String) (arguments : Arguments) (policy : String) :
    ApprovalCalls Call :=
  match state.table.get approvalId with
  | none => state.finish call (.verified false)
  | some approval =>
      if approval.isDue now then
        state.moveTo call (.saving approval.expired fun _ => .verified false)
      else
        state.finish call
          (.verified (approval.approves tool (approvalHash sha256 tool arguments policy)))

/-- One request of the sweep. -/
def sweepOne (state : ApprovalCalls Call) (call : Call) (now : Int)
    (purpose : SweepPurpose) (approval : StoredApproval) (rest : List StoredApproval)
    (count : Nat) : ApprovalCalls Call :=
  if approval.isDue now then
    moveTo { state with table := (state.table.update now approval.expired).1 } call
      (.sweeping purpose rest (count + 1))
  else state.moveTo call (.sweeping purpose rest count)

/-- What follows the sweep. -/
def afterSweep (state : ApprovalCalls Call) (call : Call) (count : Nat) :
    SweepPurpose → ApprovalCalls Call
  | .sweepExpired => state.finish call (.swept count)
  | .pending taskId => state.moveTo call (.relisting taskId)
  | .awaiting approvalId reason => state.moveTo call (.getting approvalId reason)

/-- `await_approval` behind `get`. -/
def afterGet (state : ApprovalCalls Call) (call : Call) (approvalId reason : String) :
    ApprovalCalls Call :=
  match state.table.get approvalId with
  | none =>
      state.finish call (.waited .denied (reason ++ " (approval wait timed out)"))
  | some approval =>
      match approval.status with
      | .approved =>
          state.finish call
            (.waited .granted ("human approved action " ++ Text.take 8 approval.id))
      | .denied | .expired =>
          state.finish call (.waited .denied
            ("human " ++ approval.status.value.toLower ++ " action " ++
              Text.take 8 approval.id))
      | .pending => state.moveTo call (.waiting approvalId reason)

def advance (sha256 : String → String) (state : ApprovalCalls Call) (call : Call)
    (now : Int) : StorePhase → Option (ApprovalCalls Call)
  | .deciding approvalId approved decidedBy =>
      some (state.loadToDecide call now approvalId approved decidedBy)
  | .verifying approvalId tool arguments policy =>
      some (state.loadToVerify sha256 call now approvalId tool arguments policy)
  | .saving approval answer =>
      let (table, saved) := state.table.update now approval
      some (finish { state with table } call (answer saved))
  | .sweep purpose => some (state.moveTo call (.sweeping purpose state.table.list 0))
  | .sweeping purpose [] count => some (state.afterSweep call count purpose)
  | .sweeping purpose (approval :: rest) count =>
      some (state.sweepOne call now purpose approval rest count)
  | .relisting taskId =>
      some (state.finish call (.listed (state.table.list.filter fun approval =>
        approval.toApprovalRequest.isPendingFor taskId)))
  | .getting approvalId reason =>
      match state.lock with
      | some _ => none
      | none => some (state.afterGet call approvalId reason)
  | .waiting approvalId reason =>
      some (state.moveTo call (.sweep (.awaiting approvalId reason)))
  | .finished _ => none

def step (sha256 : String → String) : StepFunction (ApprovalCalls Call) (StoreAction Call)
  | state, .decide call approvalId approved decidedBy =>
      state.beginLocked call (.deciding approvalId approved decidedBy)
  | state, .verify call approvalId tool arguments policy =>
      state.beginLocked call (.verifying approvalId tool arguments policy)
  | state, .pending call taskId => state.beginLocked call (.sweep (.pending taskId))
  | state, .sweepExpired call => state.begin call (.sweep .sweepExpired)
  | state, .awaitApproval call approvalId reason =>
      state.begin call (.waiting approvalId reason)
  | state, .advance call now =>
      match state.phase call with
      | none => none
      | some phase => state.advance sha256 call now phase
  | state, .stopWaiting call cancelled =>
      match state.phase call with
      | some (.waiting _ reason) =>
          some (state.finish call (.waited .denied (reason ++
            if cancelled then " (task cancelled while awaiting approval)"
            else " (approval wait timed out)")))
      | _ => none

end ApprovalCalls

end Raphael.Security
