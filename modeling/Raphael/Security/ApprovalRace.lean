import Raphael.Foundation.SlotTable
import Raphael.Security.ApprovalCalls

/-! # Decisions against sweeps

`decide`, `verify` and `pending` work under the lock, a sweep of its own and the one in
`await_approval` do not. What such a sweep saves is a copy it listed before. -/

namespace Raphael.Security

open Core Foundation Persistence

/-- The phases in which a call holds the lock. -/
def StorePhase.locks : StorePhase → Bool
  | .deciding _ _ _ | .verifying _ _ _ _ | .saving _ _ | .relisting _ => true
  | .sweep purpose | .sweeping purpose _ _ => purpose.locks
  | .getting _ _ | .waiting _ _ | .finished _ => false

/-- A decision of the request is about to be saved. -/
def StorePhase.decides (approvalId : String) : StorePhase → Prop
  | .saving approval _ => approval.id = approvalId ∧ approval.status ≠ .expired
  | _ => False

instance (approvalId : String) (phase : StorePhase) : Decidable (phase.decides approvalId) := by
  unfold StorePhase.decides
  split <;> infer_instance

/-- EXPIRED may be saved over it. -/
def Open (status : Option ApprovalStatus) : Prop :=
  status = some .pending ∨ status = some .expired

instance (status : Option ApprovalStatus) : Decidable (Open status) := by
  unfold Open
  infer_instance

/-- What a call that holds the lock is about to save fits what is stored. -/
def StorePhase.Sound (stored : String → Option ApprovalStatus) : StorePhase → Prop
  | .saving approval _ =>
      approval.status ≠ .pending ∧ Open (stored approval.id) ∧
        (approval.status ≠ .expired → stored approval.id = some .pending)
  | .sweeping (.pending _) rest _ =>
      ∀ approval ∈ rest, approval.status = .pending → Open (stored approval.id)
  | _ => True

theorem StorePhase.sound_of_unlocked {phase : StorePhase} (unlocked : phase.locks = false)
    (stored : String → Option ApprovalStatus) : phase.Sound stored := by
  cases phase with
  | saving approval answer => cases unlocked
  | sweeping purpose rest count =>
      cases purpose with
      | pending taskId => cases unlocked
      | _ => trivial
  | _ => trivial

/-- A request that no decision is about to be saved of may become EXPIRED. -/
theorem StorePhase.Sound.expire {phase : StorePhase}
    {stored later : String → Option ApprovalStatus} {approvalId : String}
    (sound : phase.Sound stored) (undecided : ¬ phase.decides approvalId)
    (expires : ∀ id, later id = if id = approvalId then some .expired else stored id) :
    phase.Sound later := by
  have opens : ∀ id, Open (stored id) → Open (later id) := by
    intro id still
    rw [expires]
    split
    · exact .inr rfl
    · exact still
  cases phase with
  | saving approval answer =>
      refine ⟨sound.1, opens _ sound.2.1, fun decision => ?_⟩
      rw [expires, if_neg fun same => undecided ⟨same, decision⟩]
      exact sound.2.2 decision
  | sweeping purpose rest count =>
      cases purpose with
      | pending taskId =>
          exact fun approval present pending => opens _ (sound approval present pending)
      | _ => trivial
  | _ => trivial

namespace ApprovalCalls

variable {Call : Type u}

def statusOf (state : ApprovalCalls Call) (approvalId : String) : Option ApprovalStatus :=
  (state.table.get approvalId).map fun approval => approval.status

/-- The request may become EXPIRED: it is not decided, and no call that holds the lock
is about to save a decision of it. -/
def MayExpire (state : ApprovalCalls Call) (approvalId : String) : Prop :=
  Open (state.statusOf approvalId) ∧
    match state.lock.bind state.phase with
    | some phase => ¬ phase.decides approvalId
    | none => True

instance (state : ApprovalCalls Call) (approvalId : String) :
    Decidable (state.MayExpire approvalId) := by
  unfold MayExpire
  apply @instDecidableAnd _ _ _ ?_
  split <;> infer_instance

/-- Where a sweep without the lock is to save EXPIRED, the request may become so. -/
def SweepsUndecided (state : ApprovalCalls Call) : StoreAction Call → Prop
  | .advance call now =>
      match state.phase call with
      | some (.sweeping purpose (approval :: _) _) =>
          purpose.locks = false → approval.isDue now = true → state.MayExpire approval.id
      | _ => True
  | _ => True

instance (state : ApprovalCalls Call) (action : StoreAction Call) :
    Decidable (state.SweepsUndecided action) := by
  unfold SweepsUndecided
  split
  · split <;> infer_instance
  · infer_instance

/-- Only the holder of the lock is in a phase of it, and what it is about to save fits
what is stored. -/
structure Guarded (state : ApprovalCalls Call) : Prop where
  lock : ∀ call phase, state.phase call = some phase → phase.locks = true →
    state.lock = some call
  sound : ∀ call phase, state.phase call = some phase → phase.Sound state.statusOf

/-- What has left PENDING stays as it is. -/
def KeepsDecided (before after : ApprovalCalls Call) : Prop :=
  ∀ approvalId status, before.statusOf approvalId = some status → status ≠ .pending →
    after.statusOf approvalId = some status

theorem KeepsDecided.refl (state : ApprovalCalls Call) : state.KeepsDecided state :=
  fun _ _ found _ => found

theorem KeepsDecided.trans {first middle last : ApprovalCalls Call}
    (left : first.KeepsDecided middle) (right : middle.KeepsDecided last) :
    first.KeepsDecided last :=
  fun approvalId status found decided =>
    right approvalId status (left approvalId status found decided) decided

theorem guarded_start (table : SnapshotTable StoredApproval) :
    (start table : ApprovalCalls Call).Guarded where
  lock := by simp [start]
  sound := by simp [start]

/-- The stored statuses behind a save. -/
theorem statusOf_save {before after : ApprovalCalls Call} {now : Int}
    {approval : StoredApproval} (saved : after.table = (before.table.update now approval).1)
    (approvalId : String) :
    after.statusOf approvalId =
      if approvalId = approval.id then some approval.status
      else before.statusOf approvalId := by
  rw [statusOf, saved, SnapshotTable.get_update, apply_ite (Option.map _)]
  rfl

/-- A save that fits what is stored keeps what was decided. -/
private theorem keepsDecided_of_save {before after : ApprovalCalls Call} {now : Int}
    {approval : StoredApproval} (saved : after.table = (before.table.update now approval).1)
    (isOpen : Open (before.statusOf approval.id))
    (fits : approval.status ≠ .expired → before.statusOf approval.id = some .pending) :
    before.KeepsDecided after := by
  intro approvalId status found decided
  rw [statusOf_save saved]
  split
  · next same =>
      subst same
      rcases isOpen with pending | expired
      · rw [pending] at found
        exact absurd (Option.some.inj found).symm decided
      · rw [expired] at found fits
        cases Option.some.inj found
        by_cases expires : approval.status = .expired
        · rw [expires]
        · cases fits expires
  · exact found

/-- A loaded copy has the stored status. -/
theorem statusOf_of_get {state : ApprovalCalls Call} {approvalId : String}
    {approval : StoredApproval} (loaded : state.table.get approvalId = some approval) :
    state.statusOf approval.id = some approval.status := by
  have same : approval.id = approvalId := SnapshotTable.id_of_get loaded
  rw [statusOf, same, loaded]
  rfl

private theorem status_of_isDue {approval : StoredApproval} {now : Int}
    (due : approval.isDue now = true) : approval.status = .pending := by
  simp only [StoredApproval.isDue, Bool.and_eq_true, beq_iff_eq] at due
  exact due.1

/-- The copy that `decide` or `verify` is about to save as EXPIRED was PENDING. -/
private theorem sound_expired {state : ApprovalCalls Call} {approvalId : String}
    {approval : StoredApproval} {now : Int} {answer : StoredApproval → StoreAnswer}
    (loaded : state.table.get approvalId = some approval)
    (due : approval.isDue now = true) :
    (StorePhase.saving approval.expired answer).Sound state.statusOf := by
  have stored : state.statusOf approval.id = some .pending := by
    rw [statusOf_of_get loaded, status_of_isDue due]
  exact ⟨nofun, .inl stored, fun differs => absurd rfl differs⟩

variable [DecidableEq Call]

/-- A step of one call: what it leaves the others, and what it goes on to. -/
private theorem Guarded.next {before after : ApprovalCalls Call} {call : Call}
    {phase : StorePhase} (guarded : before.Guarded)
    (moved : after.phase = Function.update before.phase call (some phase))
    (others : ∀ other, other ≠ call → before.lock = some other → after.lock = some other)
    (own : phase.locks = true → after.lock = some call)
    (kept : ∀ other current, other ≠ call → before.phase other = some current →
      current.Sound after.statusOf)
    (sound : phase.Sound after.statusOf) : after.Guarded := by
  constructor
  · intro other current found locks
    rw [moved] at found
    rcases update_eq_some found with ⟨rfl, same⟩ | ⟨differs, present⟩
    · exact own (Option.some.inj same ▸ locks)
    · exact others other differs (guarded.lock other current present locks)
  · intro other current found
    rw [moved] at found
    rcases update_eq_some found with ⟨rfl, same⟩ | ⟨differs, present⟩
    · exact Option.some.inj same ▸ sound
    · exact kept other current differs present

/-- A step without a save. -/
private theorem Guarded.move {before after : ApprovalCalls Call} {call : Call}
    {phase : StorePhase} (guarded : before.Guarded)
    (moved : after.phase = Function.update before.phase call (some phase))
    (table : after.table = before.table)
    (others : ∀ other, other ≠ call → before.lock = some other → after.lock = some other)
    (own : phase.locks = true → after.lock = some call)
    (sound : phase.Sound before.statusOf) :
    after.Guarded ∧ before.KeepsDecided after := by
  have same : after.statusOf = before.statusOf := by
    funext approvalId
    simp only [statusOf, table]
  constructor
  · apply guarded.next moved others own
    · exact fun other current _ present => same ▸ guarded.sound other current present
    · exact same ▸ sound
  · exact fun approvalId status found _ => same ▸ found

/-- The holder of the lock saves what fits; no other call is in a phase of the lock. -/
private theorem Guarded.save {before after : ApprovalCalls Call} {call : Call}
    {phase : StorePhase} {now : Int} {approval : StoredApproval} (guarded : before.Guarded)
    (moved : after.phase = Function.update before.phase call (some phase))
    (saved : after.table = (before.table.update now approval).1)
    (holds : before.lock = some call)
    (own : phase.locks = true → after.lock = some call)
    (isOpen : Open (before.statusOf approval.id))
    (fits : approval.status ≠ .expired → before.statusOf approval.id = some .pending)
    (sound : phase.Sound after.statusOf) :
    after.Guarded ∧ before.KeepsDecided after := by
  have differs : ∀ other, other ≠ call → before.lock ≠ some other := by
    intro other differs held
    rw [holds] at held
    exact differs (Option.some.inj held).symm
  constructor
  · apply guarded.next moved (fun other apart held => absurd held (differs other apart)) own _
      sound
    intro other current apart present
    apply StorePhase.sound_of_unlocked
    by_contra locked
    exact differs other apart
      (guarded.lock other current present (Bool.eq_true_of_not_eq_false locked))
  · exact keepsDecided_of_save saved isOpen fits

/-- A sweep without the lock saves EXPIRED. -/
private theorem Guarded.sweepUnlocked {before after : ApprovalCalls Call} {call : Call}
    {purpose : SweepPurpose} {rest : List StoredApproval} {count : Nat} {now : Int}
    {approval : StoredApproval} (guarded : before.Guarded)
    (moved : after.phase =
      Function.update before.phase call (some (.sweeping purpose rest count)))
    (saved : after.table = (before.table.update now approval.expired).1)
    (kept : after.lock = before.lock) (unlocked : purpose.locks = false)
    (may : before.MayExpire approval.id) : after.Guarded ∧ before.KeepsDecided after := by
  constructor
  · apply guarded.next moved (fun other _ held => kept.trans held)
    · intro locks
      exact absurd locks (by simp [StorePhase.locks, unlocked])
    · intro other current _ present
      apply (guarded.sound other current present).expire _ (statusOf_save saved)
      intro decides
      have locks : current.locks = true := by
        cases current with
        | saving copy answer => rfl
        | _ => cases decides
      have undecided := may.2
      rw [guarded.lock other current present locks, Option.bind_some, present] at undecided
      exact undecided decides
    · exact StorePhase.sound_of_unlocked (by simpa [StorePhase.locks] using unlocked) _
  · exact keepsDecided_of_save saved may.1 (fun differs => absurd rfl differs)

/-- A step that begins a call, without the lock or with it. -/
private theorem Guarded.begin {before after : ApprovalCalls Call} {call : Call}
    {phase : StorePhase} (guarded : before.Guarded)
    (begun : before.begin call phase = some after) (unlocked : phase.locks = false) :
    after.Guarded ∧ before.KeepsDecided after := by
  unfold ApprovalCalls.begin at begun
  split at begun
  · cases begun
    exact guarded.move rfl rfl (fun _ _ held => held) (by simp [unlocked])
      (StorePhase.sound_of_unlocked unlocked _)
  · cases begun

private theorem Guarded.beginLocked {before after : ApprovalCalls Call} {call : Call}
    {phase : StorePhase} (guarded : before.Guarded)
    (begun : before.beginLocked call phase = some after)
    (sound : phase.Sound before.statusOf) : after.Guarded ∧ before.KeepsDecided after := by
  unfold ApprovalCalls.beginLocked at begun
  split at begun
  · next free =>
      cases begun
      exact guarded.move rfl rfl (fun _ _ held => by simp [free] at held) (fun _ => rfl) sound
  · cases begun

/-- A call that ends leaves the lock to the others. -/
private theorem Guarded.finish {before : ApprovalCalls Call} {call : Call}
    {answer : StoreAnswer} (guarded : before.Guarded) :
    (before.finish call answer).Guarded ∧
      before.KeepsDecided (before.finish call answer) := by
  refine guarded.move rfl rfl ?_ (fun locks => by cases locks) trivial
  intro other differs held
  have elsewhere : before.lock ≠ some call := by
    rw [held]
    exact fun same => differs (Option.some.inj same)
  simpa [ApprovalCalls.finish, moveTo, elsewhere] using held

/-- A call that holds the lock goes on with it. -/
private theorem Guarded.hold {before : ApprovalCalls Call} {call : Call}
    {phase : StorePhase} (guarded : before.Guarded) (held : before.lock = some call)
    (sound : phase.Sound before.statusOf) :
    (before.moveTo call phase).Guarded ∧ before.KeepsDecided (before.moveTo call phase) :=
  guarded.move rfl rfl (fun _ _ other => other) (fun _ => held) sound

private theorem Guarded.loadToDecide {state : ApprovalCalls Call} {call : Call}
    (guarded : state.Guarded) (held : state.lock = some call) (now : Int)
    (approvalId : String) (approved : Bool) (decidedBy : String) :
    (state.loadToDecide call now approvalId approved decidedBy).Guarded ∧
      state.KeepsDecided
        (state.loadToDecide call now approvalId approved decidedBy) := by
  unfold ApprovalCalls.loadToDecide
  dsimp only
  split
  · exact guarded.finish
  · next approval loaded =>
      split
      · next due => exact guarded.hold held (sound_expired loaded due)
      · split
        · next pending =>
            have stored : state.statusOf approval.id = some .pending := by
              rw [statusOf_of_get loaded, beq_iff_eq.mp pending]
            apply guarded.hold held
            refine ⟨?_, .inl stored, fun _ => stored⟩
            cases approved <;> simp [StoredApproval.decided]
        · exact guarded.finish

private theorem Guarded.loadToVerify {state : ApprovalCalls Call} {call : Call}
    (guarded : state.Guarded) (held : state.lock = some call) (sha256 : String → String)
    (now : Int) (approvalId tool : String) (arguments : Arguments) (policy : String) :
    (state.loadToVerify sha256 call now approvalId tool arguments policy).Guarded ∧
      state.KeepsDecided
        (state.loadToVerify sha256 call now approvalId tool arguments policy) := by
  unfold ApprovalCalls.loadToVerify
  split
  · exact guarded.finish
  · next approval loaded =>
      split
      · next due => exact guarded.hold held (sound_expired loaded due)
      · exact guarded.finish

private theorem Guarded.sweepOne {state : ApprovalCalls Call} {call : Call} {now : Int}
    {purpose : SweepPurpose} {approval : StoredApproval} {rest : List StoredApproval}
    {count : Nat} (guarded : state.Guarded)
    (current : state.phase call = some (.sweeping purpose (approval :: rest) count))
    (undecided : state.SweepsUndecided (.advance call now)) :
    (state.sweepOne call now purpose approval rest count).Guarded ∧
      state.KeepsDecided (state.sweepOne call now purpose approval rest count) := by
  simp only [SweepsUndecided, current] at undecided
  unfold ApprovalCalls.sweepOne
  cases locks : purpose.locks with
  | false =>
      split
      · next due =>
          exact guarded.sweepUnlocked rfl rfl rfl locks (undecided locks due)
      · exact guarded.move rfl rfl (fun _ _ held => held)
          (by simp [StorePhase.locks, locks])
          (StorePhase.sound_of_unlocked (by simpa [StorePhase.locks] using locks) _)
  | true =>
      cases purpose with
      | sweepExpired => cases locks
      | awaiting approvalId reason => cases locks
      | pending taskId =>
          have held : state.lock = some call := guarded.lock call _ current rfl
          have sound : ∀ copy ∈ approval :: rest, copy.status = .pending →
              Open (state.statusOf copy.id) := guarded.sound call _ current
          split
          · next due =>
              have isOpen := sound approval (.head _) (status_of_isDue due)
              refine guarded.save rfl rfl held (fun _ => held) isOpen
                (fun differs => absurd rfl differs) ?_
              intro copy present pending
              rw [@statusOf_save _ state _ _ _ rfl]
              split
              · exact .inr rfl
              · exact sound copy (.tail _ present) pending
          · exact guarded.hold held fun copy present => sound copy (.tail _ present)

/-- One step of a call keeps the invariant and what was decided. -/
private theorem Guarded.advance {sha256 : String → String} {before after : ApprovalCalls Call}
    {call : Call} {now : Int} {phase : StorePhase} (guarded : before.Guarded)
    (current : before.phase call = some phase)
    (undecided : before.SweepsUndecided (.advance call now))
    (advanced : before.advance sha256 call now phase = some after) :
    after.Guarded ∧ before.KeepsDecided after := by
  cases phase with
  | deciding approvalId approved decidedBy =>
      cases advanced
      exact guarded.loadToDecide (guarded.lock call _ current rfl) ..
  | verifying approvalId tool arguments policy =>
      cases advanced
      exact guarded.loadToVerify (guarded.lock call _ current rfl) ..
  | saving approval answer =>
      cases advanced
      have sound := guarded.sound call _ current
      exact guarded.save rfl rfl (guarded.lock call _ current rfl) (fun locks => by cases locks)
        sound.2.1 sound.2.2 trivial
  | sweep purpose =>
      cases advanced
      have held : purpose.locks = true → before.lock = some call :=
        fun locks => guarded.lock call _ current locks
      refine guarded.move rfl rfl (fun _ _ other => other) held ?_
      cases purpose with
      | pending taskId =>
          intro approval present pending
          rw [SnapshotTable.mem_list] at present
          have loaded := SnapshotTable.get_eq_some_iff.mpr ⟨present, rfl⟩
          exact .inl ((statusOf_of_get loaded).trans (congrArg some pending))
      | _ => trivial
  | sweeping purpose rest count =>
      cases rest with
      | nil =>
          cases advanced
          cases purpose with
          | sweepExpired => exact guarded.finish
          | pending taskId => exact guarded.hold (guarded.lock call _ current rfl) trivial
          | awaiting approvalId reason =>
              exact guarded.move rfl rfl (fun _ _ held => held) (fun locks => by cases locks)
                trivial
      | cons approval rest =>
          cases advanced
          exact guarded.sweepOne current undecided
  | relisting taskId =>
      cases advanced
      exact guarded.finish
  | getting approvalId reason =>
      simp only [ApprovalCalls.advance] at advanced
      split at advanced
      · cases advanced
      · cases advanced
        unfold ApprovalCalls.afterGet
        split
        · exact guarded.finish
        · split
          · exact guarded.finish
          · exact guarded.finish
          · exact guarded.finish
          · exact guarded.move rfl rfl (fun _ _ held => held) (fun locks => by cases locks)
              trivial
  | waiting approvalId reason =>
      cases advanced
      exact guarded.move rfl rfl (fun _ _ held => held) (fun locks => by cases locks) trivial
  | finished answer => cases advanced

/-- One step keeps the invariant and what was decided. -/
theorem Guarded.step {sha256 : String → String} {before after : ApprovalCalls Call}
    {action : StoreAction Call} (guarded : before.Guarded)
    (undecided : before.SweepsUndecided action)
    (stepped : ApprovalCalls.step sha256 before action = some after) :
    after.Guarded ∧ before.KeepsDecided after := by
  cases action with
  | decide call approvalId approved decidedBy => exact guarded.beginLocked stepped trivial
  | verify call approvalId tool arguments policy => exact guarded.beginLocked stepped trivial
  | pending call taskId => exact guarded.beginLocked stepped trivial
  | sweepExpired call => exact guarded.begin stepped rfl
  | awaitApproval call approvalId reason => exact guarded.begin stepped rfl
  | advance call now =>
      simp only [ApprovalCalls.step] at stepped
      split at stepped
      · cases stepped
      · next phase current => exact guarded.advance current undecided stepped
  | stopWaiting call cancelled =>
      simp only [ApprovalCalls.step] at stepped
      split at stepped
      · cases stepped
        exact guarded.finish
      · cases stepped

/-- In every run whose sweeps outside the lock save EXPIRED only where the request may
become so, a status that has left PENDING never changes. -/
theorem keepsDecided_of_sweepsUndecided {sha256 : String → String}
    {table : SnapshotTable StoredApproval} {earlier later : List (StoreAction Call)}
    {middle final : ApprovalCalls Call}
    (undecided : StepFunction.Meets (step sha256) SweepsUndecided (start table)
      (earlier ++ later))
    (reached : StepFunction.run (step sha256) (start table) earlier = some middle)
    (continued : StepFunction.run (step sha256) middle later = some final) :
    ∀ approvalId status, middle.statusOf approvalId = some status → status ≠ .pending →
      final.statusOf approvalId = some status := by
  rcases StepFunction.meets_append.mp undecided with ⟨front, back⟩
  have guarded : middle.Guarded :=
    StepFunction.invariant_of_meets
      (fun _ _ _ guarded undecided stepped => (Guarded.step guarded undecided stepped).1)
      (guarded_start table) front reached
  exact StepFunction.related_of_meets Guarded KeepsDecided.refl (fun _ _ _ => KeepsDecided.trans)
    (fun _ _ _ guarded undecided stepped => Guarded.step guarded undecided stepped)
    guarded (back middle reached) continued

/-- One pending request, which expires at 10. -/
def onePending : SnapshotTable StoredApproval where
  name := "approval_requests"
  rows := [{ id := "first", updatedAt := 0, taskId := "task", expiresAt := some 10 }]
  distinct := by decide

/-- A sweep lists the request, and then it is approved in time. -/
def untilApproved : List (StoreAction Bool) :=
  [.sweepExpired true, .advance true 9, .decide false "first" true "operator",
    .advance false 9, .advance false 9]

theorem untilApproved_expires :
    ∃ middle final,
      StepFunction.run (step id) (start onePending) untilApproved = some middle ∧
      StepFunction.run (step id) middle [.advance true 10] = some final ∧
      middle.statusOf "first" = some .approved ∧ final.statusOf "first" = some .expired := by
  refine ⟨_, _, rfl, rfl, ?_⟩
  decide +kernel

/-- The request is approved before the sweep lists it. -/
def approvedFirst : List (StoreAction Bool) :=
  [.decide false "first" true "operator", .advance false 9, .advance false 9,
    .sweepExpired true, .advance true 9]

theorem keepsDecided_of_approvedFirst :
    ∃ middle final,
      StepFunction.run (step id) (start onePending) approvedFirst = some middle ∧
      StepFunction.run (step id) middle [.advance true 10, .advance true 10] = some final ∧
      ∀ approvalId status, middle.statusOf approvalId = some status → status ≠ .pending →
        final.statusOf approvalId = some status :=
  ⟨_, _, rfl, rfl, @keepsDecided_of_sweepsUndecided Bool _ id onePending approvedFirst
    [.advance true 10, .advance true 10] _ _ (by decide +kernel) rfl rfl⟩

end ApprovalCalls

end Raphael.Security
