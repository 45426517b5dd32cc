import Mathlib.Algebra.Order.Ring.Int
import Raphael.Foundation.SlotTable
import Raphael.Foundation.StepSystem

/-! # The circuit breaker

Any number of callers share one `CircuitBreaker`. The admission check, the end of
the protected function and the update of the breaker are one step each, and the
clock never goes back. -/

namespace Raphael.Core

open Foundation

inductive BreakerState
  | closed
  | «open»
  | halfOpen
  deriving DecidableEq

/-- What the constructor takes, and the two checks that it makes. -/
structure BreakerSettings (Time : Type u) [LE Time] [Zero Time] where
  failureThreshold : Nat
  resetTimeout : Time
  one_le_failureThreshold : 1 ≤ failureThreshold
  zero_le_resetTimeout : 0 ≤ resetTimeout

structure CircuitBreaker (Time : Type u) where
  state : BreakerState
  failures : Nat
  openedAt : Time
  halfOpenInFlight : Bool

namespace CircuitBreaker

variable {Time : Type u} [AddCommGroup Time] [LinearOrder Time]

def initial : CircuitBreaker Time where
  state := .closed
  failures := 0
  openedAt := 0
  halfOpenInFlight := false

/-- `_state_unlocked`, with the breaker that it leaves behind. -/
def stateUnlocked (settings : BreakerSettings Time) (clock : Time)
    (breaker : CircuitBreaker Time) : CircuitBreaker Time :=
  if breaker.state = .«open» ∧ settings.resetTimeout ≤ clock - breaker.openedAt then
    { breaker with
      state := .halfOpen
      halfOpenInFlight := false }
  else breaker

/-- The locked section at the head of `call`: the state in which the function
starts, or the text of the `CircuitOpenError`. -/
def enter (settings : BreakerSettings Time) (clock : Time)
    (breaker : CircuitBreaker Time) :
    CircuitBreaker Time × Except String BreakerState :=
  let current := breaker.stateUnlocked settings clock
  match current.state with
  | .«open» => (current, .error "circuit is open")
  | .halfOpen =>
      if current.halfOpenInFlight then
        (current, .error "circuit probe already in flight")
      else ({ current with halfOpenInFlight := true }, .ok .halfOpen)
  | .closed => (current, .ok .closed)

/-- The test that `_record_failure` makes after it counted the failure. -/
def Trips (settings : BreakerSettings Time) (breaker : CircuitBreaker Time) : Prop :=
  breaker.state = .halfOpen ∨ settings.failureThreshold ≤ breaker.failures + 1

instance (settings : BreakerSettings Time) (breaker : CircuitBreaker Time) :
    Decidable (breaker.Trips settings) := by
  unfold Trips
  infer_instance

def recordFailure (settings : BreakerSettings Time) (clock : Time)
    (breaker : CircuitBreaker Time) : CircuitBreaker Time :=
  if breaker.Trips settings then
    { state := .«open»
      failures := breaker.failures + 1
      openedAt := clock
      halfOpenInFlight := false }
  else { breaker with failures := breaker.failures + 1 }

def recordSuccess (breaker : CircuitBreaker Time) : CircuitBreaker Time :=
  { breaker with
    failures := 0
    state := .closed
    halfOpenInFlight := false }

end CircuitBreaker

/-- How the protected function ends. A `CircuitOpenError` of its own leaves `call`
before anything is recorded. -/
inductive FunctionEnd
  | returns
  | raises
  | raisesCircuitOpen
  deriving DecidableEq

/-- Where a caller stands. The probe is the call that was admitted in a breaker
that was half open. -/
inductive BreakerPhase
  | outside
  | running (probe : Bool)
  | recording (probe : Bool) (succeeded : Bool)
  deriving DecidableEq

/-- The call was admitted as the probe, and has not resolved. -/
def BreakerPhase.probing : BreakerPhase → Bool
  | .running probe | .recording probe _ => probe
  | .outside => false

/-- What the callers and the breaker did: a protected function started, or an
outcome opened or closed the breaker that stood at `found`. -/
inductive BreakerHappening (Time : Type u)
  | started (moment : Time)
  | opened (found : BreakerState) (byProbe : Bool) (moment : Time)
  | closed (found : BreakerState) (byProbe : Bool)
  deriving DecidableEq

namespace BreakerHappening

variable {Time : Type u}

def start? : BreakerHappening Time → Option Time
  | .started moment => some moment
  | _ => none

def opening? : BreakerHappening Time → Option Time
  | .opened _ _ moment => some moment
  | _ => none

/-- An outcome that moved the breaker while it was not closed is the probe's. -/
def ByProbe : BreakerHappening Time → Prop
  | .started _ => True
  | .opened found byProbe _ | .closed found byProbe => found = .closed ∨ byProbe = true

/-- A function that starts after an opening starts no sooner than `timeout` later. -/
def Cooled [LE Time] [Add Time] (timeout : Time)
    (earlier later : BreakerHappening Time) : Prop :=
  ∀ opening ∈ earlier.opening?, ∀ moment ∈ later.start?, opening + timeout ≤ moment

end BreakerHappening

structure SharedBreaker (Caller : Type u) (Time : Type v) where
  breaker : CircuitBreaker Time
  clock : Time
  phase : Caller → BreakerPhase
  history : List (BreakerHappening Time)

inductive BreakerAction (Caller : Type u) (Time : Type v)
  | pass (duration : Time)
  | read
  | enter (caller : Caller)
  | finish (caller : Caller) (ending : FunctionEnd)
  | record (caller : Caller)

namespace SharedBreaker

variable {Caller : Type u} {Time : Type v} [DecidableEq Caller] [AddCommGroup Time]
  [LinearOrder Time]

def start (clock : Time) : SharedBreaker Caller Time where
  breaker := .initial
  clock := clock
  phase := fun _ => .outside
  history := []

def moveTo (state : SharedBreaker Caller Time) (caller : Caller)
    (phase : BreakerPhase) : SharedBreaker Caller Time :=
  { state with phase := Function.update state.phase caller phase }

/-- `state`, which moves an open breaker on when it is read. -/
def read (settings : BreakerSettings Time) (state : SharedBreaker Caller Time) :
    SharedBreaker Caller Time :=
  { state with breaker := state.breaker.stateUnlocked settings state.clock }

/-- The admission check of a caller, and the start of its function. -/
def enter (settings : BreakerSettings Time) (state : SharedBreaker Caller Time)
    (caller : Caller) : SharedBreaker Caller Time :=
  match state.breaker.enter settings state.clock with
  | (breaker, .error _) => { state with breaker := breaker }
  | (breaker, .ok found) =>
      { breaker := breaker
        clock := state.clock
        phase := Function.update state.phase caller (.running (found = .halfOpen))
        history := state.history ++ [.started state.clock] }

def recordFailure (settings : BreakerSettings Time) (state : SharedBreaker Caller Time)
    (caller : Caller) (probe : Bool) : SharedBreaker Caller Time :=
  { breaker := state.breaker.recordFailure settings state.clock
    clock := state.clock
    phase := Function.update state.phase caller .outside
    history :=
      if state.breaker.Trips settings then
        state.history ++ [.opened state.breaker.state probe state.clock]
      else state.history }

def recordSuccess (state : SharedBreaker Caller Time) (caller : Caller)
    (probe : Bool) : SharedBreaker Caller Time :=
  { breaker := state.breaker.recordSuccess
    clock := state.clock
    phase := Function.update state.phase caller .outside
    history := state.history ++ [.closed state.breaker.state probe] }

def step (settings : BreakerSettings Time) :
    StepFunction (SharedBreaker Caller Time) (BreakerAction Caller Time)
  | state, .pass duration =>
      if 0 ≤ duration then some { state with clock := state.clock + duration } else none
  | state, .read => some (state.read settings)
  | state, .enter caller =>
      match state.phase caller with
      | .outside => some (state.enter settings caller)
      | _ => none
  | state, .finish caller ending =>
      match state.phase caller, ending with
      | .running probe, .returns => some (state.moveTo caller (.recording probe true))
      | .running probe, .raises => some (state.moveTo caller (.recording probe false))
      | .running _, .raisesCircuitOpen => some (state.moveTo caller .outside)
      | _, _ => none
  | state, .record caller =>
      match state.phase caller with
      | .recording probe true => some (state.recordSuccess caller probe)
      | .recording probe false => some (state.recordFailure settings caller probe)
      | _ => none

end SharedBreaker

/-! ## What the breaker promises -/

namespace SharedBreaker

variable {Caller : Type u} {Time : Type v} [AddCommGroup Time] [LinearOrder Time]

/-- What the breaker promises: no function starts within the reset timeout of an
opening, a probe in flight is the only one and keeps the breaker half open, and
an outcome moves a breaker that is not closed only as that of the probe. -/
structure Protects (settings : BreakerSettings Time)
    (state : SharedBreaker Caller Time) : Prop where
  cooled : state.history.Pairwise (BreakerHappening.Cooled settings.resetTimeout)
  oneProbe : ∀ caller, (state.phase caller).probing = true →
    state.breaker.state = .halfOpen ∧ state.breaker.halfOpenInFlight = true ∧
      ∀ other, (state.phase other).probing = true → other = caller
  byProbe : ∀ happening ∈ state.history, happening.ByProbe

/-- An outcome is recorded in a closed breaker, or it is that of the probe. -/
def OwnOutcome (state : SharedBreaker Caller Time) :
    BreakerAction Caller Time → Prop
  | .record caller =>
      state.breaker.state = .closed ∨ (state.phase caller).probing = true
  | _ => True

instance (state : SharedBreaker Caller Time) :
    (action : BreakerAction Caller Time) → Decidable (state.OwnOutcome action)
  | .record caller => inferInstanceAs
      (Decidable (state.breaker.state = .closed ∨ (state.phase caller).probing = true))
  | .pass _ | .read | .enter _ | .finish _ _ => isTrue trivial

/-- How long ago an opening is: an open breaker counts from the last one, any
other breaker has waited for the reset timeout. -/
def Rested (settings : BreakerSettings Time) (state : SharedBreaker Caller Time)
    (opening : Time) : Prop :=
  if state.breaker.state = .«open» then opening ≤ state.breaker.openedAt
  else opening + settings.resetTimeout ≤ state.clock

/-- What a run keeps whose outcomes are recorded where they belong. -/
structure Sound (settings : BreakerSettings Time)
    (state : SharedBreaker Caller Time) : Prop extends Protects settings state where
  rested : ∀ happening ∈ state.history, ∀ opening ∈ happening.opening?,
    state.Rested settings opening

/-- A breaker that is not closed has reached its threshold. -/
def Tripped (settings : BreakerSettings Time)
    (state : SharedBreaker Caller Time) : Prop :=
  state.breaker.state ≠ .closed → settings.failureThreshold ≤ state.breaker.failures

variable {settings : BreakerSettings Time} {state : SharedBreaker Caller Time}

private theorem read_cases (settings : BreakerSettings Time)
    (state : SharedBreaker Caller Time) :
    state.read settings = state ∨
      (state.breaker.state = .«open» ∧
        settings.resetTimeout ≤ state.clock - state.breaker.openedAt ∧
        state.read settings = { state with
          breaker := { state.breaker with
            state := .halfOpen
            halfOpenInFlight := false } }) := by
  simp only [read, CircuitBreaker.stateUnlocked]
  split
  case isTrue elapsed => exact .inr ⟨elapsed.1, elapsed.2, rfl⟩
  case isFalse => exact .inl rfl

/-- A step that leaves breaker and history alone, and that makes no caller a
probe, keeps what is sound. -/
private theorem Sound.of_phases {next : SharedBreaker Caller Time}
    (sound : state.Sound settings) (breaker : next.breaker = state.breaker)
    (history : next.history = state.history) (clock : state.clock ≤ next.clock)
    (fewer : ∀ caller, (next.phase caller).probing = true →
      (state.phase caller).probing = true) :
    next.Sound settings := by
  constructor
  case rested =>
    intro happening member opening found
    rw [history] at member
    have before := sound.rested happening member opening found
    simp only [Rested, breaker] at before ⊢
    by_cases isOpen : state.breaker.state = .«open»
    · rwa [if_pos isOpen] at before ⊢
    · rw [if_neg isOpen] at before ⊢
      exact before.trans clock
  case toProtects =>
    constructor
    · rw [history]
      exact sound.cooled
    · intro caller probing
      have before := sound.oneProbe caller (fewer caller probing)
      rw [breaker]
      exact ⟨before.1, before.2.1, fun other also => before.2.2 other (fewer other also)⟩
    · rw [history]
      exact sound.byProbe

/-- A function may start in a breaker that is not open. -/
private theorem Sound.cooled_started (sound : state.Sound settings)
    (notOpen : state.breaker.state ≠ .«open») :
    (state.history ++ [BreakerHappening.started state.clock]).Pairwise
      (BreakerHappening.Cooled settings.resetTimeout) := by
  apply List.pairwise_append.mpr
  constructor
  · exact sound.cooled
  · constructor
    · exact List.pairwise_singleton _ _
    · intro happening member later started opening found moment begun
      have before := sound.rested happening member opening found
      rw [Rested, if_neg notOpen] at before
      cases List.mem_singleton.mp started
      cases begun
      exact before

/-- An outcome is no start. -/
private theorem Protects.cooled_outcome (sound : state.Protects settings)
    {outcome : BreakerHappening Time} (noStart : outcome.start? = none) :
    (state.history ++ [outcome]).Pairwise
      (BreakerHappening.Cooled settings.resetTimeout) := by
  apply List.pairwise_append.mpr
  constructor
  · exact sound.cooled
  · constructor
    · exact List.pairwise_singleton _ _
    · intro happening member later recorded opening found moment begun
      cases List.mem_singleton.mp recorded
      rw [noStart] at begun
      cases begun

private theorem Sound.read [IsOrderedAddMonoid Time] (sound : state.Sound settings) :
    (state.read settings).Sound settings := by
  rcases read_cases settings state with same | ⟨isOpen, elapsed, equal⟩
  · rwa [same]
  · rw [equal]
    constructor
    case rested =>
      intro happening member opening found
      have before := sound.rested happening member opening found
      rw [Rested, if_pos isOpen] at before
      change opening + settings.resetTimeout ≤ state.clock
      exact le_trans (by gcongr) (le_sub_iff_add_le'.mp elapsed)
    case toProtects =>
      constructor
      · exact sound.cooled
      · intro caller probing
        have halfOpen := (sound.oneProbe caller probing).1
        rw [isOpen] at halfOpen
        cases halfOpen
      · exact sound.byProbe

/-- A breaker in which an outcome belongs is not open: it has rested since its
last opening. -/
private theorem Sound.rested_of_own (sound : state.Sound settings) {caller : Caller}
    (own : state.OwnOutcome (.record caller)) {happening : BreakerHappening Time}
    (member : happening ∈ state.history) {opening : Time}
    (found : opening ∈ happening.opening?) :
    opening + settings.resetTimeout ≤ state.clock := by
  have notOpen : state.breaker.state ≠ .«open» := by
    rcases own with isClosed | isProbe
    · simp [isClosed]
    · simp [(sound.oneProbe caller isProbe).1]
  have before := sound.rested happening member opening found
  rwa [Rested, if_neg notOpen] at before

theorem Sound.start (clock : Time) :
    (SharedBreaker.start clock : SharedBreaker Caller Time).Sound settings where
  cooled := List.Pairwise.nil
  oneProbe := fun _ probing => by cases probing
  byProbe := fun _ member => by cases member
  rested := fun _ member => by cases member

private theorem Sound.byProbe_append (sound : state.Sound settings)
    {last : BreakerHappening Time} (own : last.ByProbe) :
    ∀ happening ∈ state.history ++ [last], happening.ByProbe := by
  intro happening member
  rcases List.mem_append.mp member with earlier | new
  · exact sound.byProbe happening earlier
  · cases List.mem_singleton.mp new
    exact own

/-- A start is no opening. -/
private theorem Sound.rested_started (sound : state.Sound settings) :
    ∀ happening ∈ state.history ++ [.started state.clock], ∀ opening ∈ happening.opening?,
      state.Rested settings opening := by
  intro happening member opening found
  rcases List.mem_append.mp member with earlier | new
  · exact sound.rested happening earlier opening found
  · cases List.mem_singleton.mp new
    cases found

variable [DecidableEq Caller]

/-- An admission check is a reading of the state, after which the caller is turned
away, starts as one of many, or starts as the probe. -/
private theorem enter_cases (settings : BreakerSettings Time)
    (state : SharedBreaker Caller Time) (caller : Caller) :
    state.enter settings caller = state.read settings ∨
      ((state.read settings).breaker.state = .closed ∧
        state.enter settings caller = { state.read settings with
          phase := Function.update state.phase caller (.running false)
          history := state.history ++ [.started state.clock] }) ∨
      ((state.read settings).breaker.state = .halfOpen ∧
        (state.read settings).breaker.halfOpenInFlight = false ∧
        state.enter settings caller = { state.read settings with
          breaker := { (state.read settings).breaker with halfOpenInFlight := true }
          phase := Function.update state.phase caller (.running true)
          history := state.history ++ [.started state.clock] }) := by
  simp only [enter, read, CircuitBreaker.enter]
  cases found : (state.breaker.stateUnlocked settings state.clock).state with
  | «open» => exact .inl rfl
  | closed => exact .inr (.inl ⟨rfl, rfl⟩)
  | halfOpen =>
      cases inFlight :
          (state.breaker.stateUnlocked settings state.clock).halfOpenInFlight with
      | true => exact .inl rfl
      | false => exact .inr (.inr ⟨rfl, rfl, rfl⟩)

private theorem probing_update {phase : Caller → BreakerPhase} {caller other : Caller}
    {next : BreakerPhase}
    (probing : (Function.update phase caller next other).probing = true) :
    (other = caller ∧ next.probing = true) ∨ (phase other).probing = true := by
  by_cases same : other = caller
  · subst same
    exact .inl ⟨rfl, by simpa using probing⟩
  · rw [Function.update_of_ne same] at probing
    exact .inr probing

private theorem Sound.moveTo (sound : state.Sound settings) {caller : Caller}
    {phase : BreakerPhase}
    (fewer : phase.probing = true → (state.phase caller).probing = true) :
    (state.moveTo caller phase).Sound settings := by
  have sameBreaker : (state.moveTo caller phase).breaker = state.breaker := rfl
  apply sound.of_phases sameBreaker rfl le_rfl
  intro other probing
  rcases probing_update probing with ⟨rfl, became⟩ | before
  · exact fewer became
  · exact before

private theorem Sound.startClosed (sound : state.Sound settings)
    (isClosed : state.breaker.state = .closed) (caller : Caller) :
    Sound settings { state with
      phase := Function.update state.phase caller (.running false)
      history := state.history ++ [.started state.clock] } := by
  constructor
  case rested => exact sound.rested_started
  case toProtects =>
    constructor
    · exact sound.cooled_started (by simp [isClosed])
    · intro other probing
      rcases probing_update probing with ⟨_, became⟩ | before
      · cases became
      · have halfOpen := (sound.oneProbe other before).1
        rw [isClosed] at halfOpen
        cases halfOpen
    · exact sound.byProbe_append trivial

private theorem Sound.startProbe (sound : state.Sound settings)
    (isHalfOpen : state.breaker.state = .halfOpen)
    (free : state.breaker.halfOpenInFlight = false) (caller : Caller) :
    Sound settings { state with
      breaker := { state.breaker with halfOpenInFlight := true }
      phase := Function.update state.phase caller (.running true)
      history := state.history ++ [.started state.clock] } := by
  -- No call is a probe yet: a probe would hold the flag.
  have noProbe : ∀ other, (state.phase other).probing ≠ true := by
    intro other probing
    have held := (sound.oneProbe other probing).2.1
    rw [free] at held
    cases held
  constructor
  case rested => exact sound.rested_started
  case toProtects =>
    constructor
    · exact sound.cooled_started (by simp [isHalfOpen])
    · intro other probing
      rcases probing_update probing with ⟨rfl, _⟩ | before
      · refine ⟨isHalfOpen, rfl, fun third also => ?_⟩
        rcases probing_update also with ⟨same, _⟩ | before
        · exact same
        · exact absurd before (noProbe third)
      · exact absurd before (noProbe other)
    · exact sound.byProbe_append trivial

private theorem Sound.enter [IsOrderedAddMonoid Time] (sound : state.Sound settings)
    (caller : Caller) : (state.enter settings caller).Sound settings := by
  rcases enter_cases settings state caller with
    turned | ⟨isClosed, equal⟩ | ⟨isHalfOpen, free, equal⟩
  · rw [turned]
    exact sound.read
  · rw [equal]
    exact sound.read.startClosed isClosed caller
  · rw [equal]
    exact sound.read.startProbe isHalfOpen free caller

/-- Once the outcome of a call is recorded that belongs there, no call is a probe. -/
private theorem Sound.noProbe_after (sound : state.Sound settings) {caller : Caller}
    (own : state.OwnOutcome (.record caller)) (other : Caller) :
    (Function.update state.phase caller .outside other).probing ≠ true := by
  intro probing
  rcases probing_update probing with ⟨_, became⟩ | before
  · cases became
  · have alone := sound.oneProbe other before
    rcases own with isClosed | isProbe
    · rw [isClosed] at alone
      cases alone.1
    · have same := (alone.2.2 caller isProbe).symm
      subst same
      simp [BreakerPhase.probing] at probing

private theorem Sound.recordSuccess (sound : state.Sound settings) {caller : Caller}
    (own : state.OwnOutcome (.record caller)) {probe : Bool}
    (isProbe : probe = (state.phase caller).probing) :
    (state.recordSuccess caller probe).Sound settings := by
  constructor
  case rested =>
    intro happening member opening found
    rcases List.mem_append.mp member with earlier | new
    · exact sound.rested_of_own own earlier found
    · cases List.mem_singleton.mp new
      cases found
  case toProtects =>
    constructor
    · exact sound.cooled_outcome rfl
    · intro other probing
      exact absurd probing (sound.noProbe_after own other)
    · subst isProbe
      exact sound.byProbe_append own

private theorem Sound.recordFailure (positive : 0 ≤ settings.resetTimeout)
    [IsOrderedAddMonoid Time] (sound : state.Sound settings) {caller : Caller}
    (own : state.OwnOutcome (.record caller)) {probe : Bool}
    (isProbe : probe = (state.phase caller).probing) :
    (state.recordFailure settings caller probe).Sound settings := by
  by_cases trips : state.breaker.Trips settings
  · simp only [SharedBreaker.recordFailure, CircuitBreaker.recordFailure, if_pos trips]
    constructor
    case rested =>
      intro happening member opening found
      change opening ≤ state.clock
      rcases List.mem_append.mp member with earlier | new
      · exact (le_add_of_nonneg_right positive).trans
          (sound.rested_of_own own earlier found)
      · cases List.mem_singleton.mp new
        cases found
        exact le_rfl
    case toProtects =>
      constructor
      · exact sound.cooled_outcome rfl
      · intro other probing
        exact absurd probing (sound.noProbe_after own other)
      · subst isProbe
        exact sound.byProbe_append own
  · simp only [SharedBreaker.recordFailure, CircuitBreaker.recordFailure, if_neg trips]
    constructor
    case rested => exact sound.rested
    case toProtects =>
      constructor
      · exact sound.cooled
      · intro other probing
        exact absurd probing (sound.noProbe_after own other)
      · exact sound.byProbe

/-- One step whose outcome belongs where it is recorded. -/
private theorem Sound.step [IsOrderedAddMonoid Time]
    (state : SharedBreaker Caller Time) (action : BreakerAction Caller Time)
    (next : SharedBreaker Caller Time) (sound : state.Sound settings)
    (own : state.OwnOutcome action)
    (stepped : SharedBreaker.step settings state action = some next) :
    next.Sound settings := by
  cases action with
  | pass duration =>
      simp only [SharedBreaker.step, Option.ite_none_right_eq_some,
        Option.some.injEq] at stepped
      rcases stepped with ⟨forward, rfl⟩
      exact sound.of_phases rfl rfl (le_add_of_nonneg_right forward) fun _ probing => probing
  | read =>
      cases stepped
      exact sound.read
  | enter caller =>
      simp only [SharedBreaker.step] at stepped
      split at stepped
      · cases stepped
        exact sound.enter caller
      · cases stepped
  | finish caller ending =>
      simp only [SharedBreaker.step] at stepped
      split at stepped
      case h_1 probe found | h_2 probe found =>
        cases stepped
        apply sound.moveTo
        rw [found]
        exact id
      case h_3 =>
        cases stepped
        apply sound.moveTo
        exact nofun
      case h_4 => cases stepped
  | record caller =>
      simp only [SharedBreaker.step] at stepped
      split at stepped
      case h_1 probe found =>
        cases stepped
        exact sound.recordSuccess own (by rw [found]; rfl)
      case h_2 probe found =>
        cases stepped
        exact sound.recordFailure settings.zero_le_resetTimeout own (by rw [found]; rfl)
      case h_3 => cases stepped

/-- What one step leaves of the history, and whether the breaker counts enough
failures. -/
private theorem step_keeps (state : SharedBreaker Caller Time)
    (action : BreakerAction Caller Time) (next : SharedBreaker Caller Time)
    (tripped : state.Tripped settings)
    (stepped : SharedBreaker.step settings state action = some next) :
    next.Tripped settings ∧ ∀ happening ∈ state.history, happening ∈ next.history := by
  have read : (state.read settings).Tripped settings := by
    rcases read_cases settings state with same | ⟨isOpen, _, equal⟩
    · rwa [same]
    · rw [equal]
      exact fun _ => tripped (by simp [isOpen])
  cases action with
  | pass duration =>
      simp only [SharedBreaker.step, Option.ite_none_right_eq_some,
        Option.some.injEq] at stepped
      rcases stepped with ⟨_, rfl⟩
      exact ⟨tripped, fun _ member => member⟩
  | read =>
      cases stepped
      exact ⟨read, fun _ member => member⟩
  | enter caller =>
      simp only [SharedBreaker.step] at stepped
      split at stepped
      case h_1 =>
        cases stepped
        rcases enter_cases settings state caller with
          turned | ⟨_, equal⟩ | ⟨_, _, equal⟩
        · rw [turned]
          exact ⟨read, fun _ member => member⟩
        · rw [equal]
          exact ⟨read, fun _ member => List.mem_append_left _ member⟩
        · rw [equal]
          exact ⟨read, fun _ member => List.mem_append_left _ member⟩
      case h_2 => cases stepped
  | finish caller ending =>
      simp only [SharedBreaker.step] at stepped
      split at stepped
      case h_4 => cases stepped
      all_goals
        cases stepped
        exact ⟨tripped, fun _ member => member⟩
  | record caller =>
      simp only [SharedBreaker.step] at stepped
      split at stepped
      case h_1 =>
        cases stepped
        exact ⟨fun notClosed => absurd rfl notClosed,
          fun _ member => List.mem_append_left _ member⟩
      case h_2 =>
        cases stepped
        by_cases trips : state.breaker.Trips settings
        · simp only [SharedBreaker.recordFailure, CircuitBreaker.recordFailure, if_pos trips]
          constructor
          · intro _
            rcases trips with isHalfOpen | enough
            · exact Nat.le_succ_of_le (tripped (by simp [isHalfOpen]))
            · exact enough
          · exact fun _ member => List.mem_append_left _ member
        · simp only [SharedBreaker.recordFailure, CircuitBreaker.recordFailure, if_neg trips]
          exact ⟨fun notClosed => Nat.le_succ_of_le (tripped notClosed),
            fun _ member => member⟩
      case h_3 => cases stepped

/-- An outcome that is recorded where it does not belong closes the breaker or
opens it anew. -/
private theorem foreign_outcome {action : BreakerAction Caller Time}
    {next : SharedBreaker Caller Time} (tripped : state.Tripped settings)
    (foreign : ¬ state.OwnOutcome action)
    (stepped : SharedBreaker.step settings state action = some next) :
    ∃ happening ∈ next.history, ¬ happening.ByProbe := by
  cases action with
  | record caller =>
      rcases not_or.mp foreign with ⟨notClosed, notProbe⟩
      simp only [SharedBreaker.step] at stepped
      split at stepped
      case h_1 probe found =>
        cases stepped
        rw [found] at notProbe
        exact ⟨_, List.mem_append_right _ (List.mem_singleton_self _),
          not_or.mpr ⟨notClosed, notProbe⟩⟩
      case h_2 probe found =>
        cases stepped
        rw [found] at notProbe
        have trips : state.breaker.Trips settings :=
          .inr (Nat.le_succ_of_le (tripped notClosed))
        simp only [SharedBreaker.recordFailure, if_pos trips]
        exact ⟨_, List.mem_append_right _ (List.mem_singleton_self _),
          not_or.mpr ⟨notClosed, notProbe⟩⟩
      case h_3 => cases stepped
  | pass _ => exact absurd trivial foreign
  | read => exact absurd trivial foreign
  | enter _ => exact absurd trivial foreign
  | finish _ _ => exact absurd trivial foreign

private theorem history_of_run {final : SharedBreaker Caller Time}
    {actions : List (BreakerAction Caller Time)} (tripped : state.Tripped settings)
    (reached : StepFunction.run (SharedBreaker.step settings) state actions = some final) :
    ∀ happening ∈ state.history, happening ∈ final.history := by
  exact StepFunction.related_of_meets (Tripped settings)
    (fun _ _ member => member)
    (fun _ _ _ first second happening member => second happening (first happening member))
    (fun state action next tripped _ stepped =>
      step_keeps state action next tripped stepped)
    tripped (StepFunction.meets_true _ _ _) reached

/-- Where every outcome in the history belongs, every step recorded one that did. -/
private theorem meets_of_byProbe {final : SharedBreaker Caller Time}
    {actions : List (BreakerAction Caller Time)} (tripped : state.Tripped settings)
    (reached : StepFunction.run (SharedBreaker.step settings) state actions = some final)
    (byProbe : ∀ happening ∈ final.history, happening.ByProbe) :
    StepFunction.Meets (SharedBreaker.step settings) OwnOutcome state actions := by
  induction actions generalizing state with
  | nil => trivial
  | cons action rest induction =>
      rcases StepFunction.run_cons_eq_some.mp reached with ⟨next, stepped, remaining⟩
      have kept := step_keeps state action next tripped stepped
      constructor
      · by_contra foreign
        rcases foreign_outcome tripped foreign stepped with ⟨happening, member, not⟩
        exact not (byProbe happening (history_of_run kept.1 remaining happening member))
      · intro other also
        rw [stepped] at also
        cases also
        exact induction kept.1 remaining

/-- The breaker keeps its promises in a run if and only if every outcome is
recorded in a closed breaker or is that of the probe. -/
theorem protects_iff_ownOutcomes [IsOrderedAddMonoid Time]
    (settings : BreakerSettings Time) (clock : Time)
    (actions : List (BreakerAction Caller Time)) (final : SharedBreaker Caller Time)
    (reached : StepFunction.run (SharedBreaker.step settings)
      (SharedBreaker.start clock) actions = some final) :
    final.Protects settings ↔
      StepFunction.Meets (SharedBreaker.step settings) OwnOutcome
        (SharedBreaker.start clock) actions := by
  constructor
  · intro protects
    exact meets_of_byProbe (fun notClosed => absurd rfl notClosed) reached protects.byProbe
  · intro meets
    exact (StepFunction.invariant_of_meets Sound.step (Sound.start clock) meets
      reached).toProtects

/-- One failure opens the breaker, for ten seconds. -/
def singleFailure : BreakerSettings Int where
  failureThreshold := 1
  resetTimeout := 10
  one_le_failureThreshold := by decide
  zero_le_resetTimeout := by decide

/-- A breaker that opens, lets the probe through after ten seconds and is closed
by it. -/
theorem protects_iff_ownOutcomes_probed :
    ∃ final, StepFunction.run (SharedBreaker.step singleFailure)
        (SharedBreaker.start 0 : SharedBreaker Nat Int)
        [.enter 0, .finish 0 .raises, .record 0, .pass 10, .enter 1, .enter 2,
          .finish 1 .returns, .record 1] = some final ∧
      (final.Protects singleFailure ↔
        StepFunction.Meets (SharedBreaker.step singleFailure) OwnOutcome
          (SharedBreaker.start 0 : SharedBreaker Nat Int)
          [.enter 0, .finish 0 .raises, .record 0, .pass 10, .enter 1, .enter 2,
            .finish 1 .returns, .record 1]) :=
  ⟨_, rfl, protects_iff_ownOutcomes singleFailure 0 _ _ rfl⟩

/-- Two calls are admitted while the breaker is closed. The first fails and opens
it, the second returns and closes it again, and a third starts at once. -/
theorem late_success_closes :
    ¬ ∀ (actions : List (BreakerAction Nat Int)) (final : SharedBreaker Nat Int),
      StepFunction.run (SharedBreaker.step singleFailure)
          (SharedBreaker.start 0) actions = some final →
        final.Protects singleFailure := by
  intro protectsAlways
  have protects := protectsAlways
    [.enter 0, .enter 1, .finish 0 .raises, .record 0, .finish 1 .returns, .record 1,
      .enter 2] _ rfl
  have early := (List.pairwise_cons.mp (List.pairwise_cons.mp
    (List.pairwise_cons.mp protects.cooled).2).2).1 (.started 0) (by decide) 0 rfl 0 rfl
  exact absurd early (by decide)

end SharedBreaker

end Raphael.Core
