import Raphael.Foundation.Effect

/-! # Calls that may fail

A program makes calls one after the other, and a script says which of them raise instead of
taking place. The program succeeds when it would without faults and none of its calls is
hit. -/

namespace Raphael.Foundation

variable {ε σ α β γ : Type}

/-- The state that the calls work on, and what the next of them raise. Behind the end of the
script, every call takes place. -/
structure Faulty (ε σ : Type) where
  state : σ
  faults : List (Option ε)

/-- One call. One that is hit leaves the state. -/
def attempt (call : EStateM ε σ α) : EStateM ε (Faulty ε σ) α := fun given =>
  match given.faults.head?.join with
  | some error => .error error ⟨given.state, given.faults.tail⟩
  | none =>
      match call given.state with
      | .ok answer after => .ok answer ⟨after, given.faults.tail⟩
      | .error error after => .error error ⟨after, given.faults.tail⟩

/-- None of the next calls is hit. -/
def Clean (count : Nat) (faults : List (Option ε)) : Prop :=
  ∀ fault ∈ faults.take count, fault = none

theorem clean_zero (faults : List (Option ε)) : Clean 0 faults := by
  intro fault member
  rw [List.take_zero] at member
  cases member

theorem clean_add {first second : Nat} {faults : List (Option ε)} :
    Clean (first + second) faults ↔
      Clean first faults ∧ Clean second (faults.drop first) := by
  simp only [Clean, List.take_add, List.forall_mem_append]

private theorem clean_one {faults : List (Option ε)} :
    Clean 1 faults ↔ faults.head?.join = none := by
  cases faults with
  | nil => simp [Clean]
  | cons fault rest => simp [Clean]

/-- The program succeeds as the plain one does, in this number of calls, if none of them is
hit; otherwise it raises. -/
def Tracks (program : EStateM ε (Faulty ε σ) α) (plain : EStateM ε σ α) (count : Nat) : Prop :=
  ∀ given answer after, program given = .ok answer after ↔
    Clean count given.faults ∧ plain given.state = .ok answer after.state ∧
      after.faults = given.faults.drop count

theorem Tracks.attempt (call : EStateM ε σ α) : Tracks (attempt call) call 1 := by
  intro given answer after
  rw [clean_one, List.drop_one]
  unfold Foundation.attempt
  cases hit : given.faults.head?.join with
  | some error =>
      constructor
      · intro returns
        cases returns
      · rintro ⟨clean, _⟩
        cases clean
  | none =>
      cases ran : call given.state with
      | error error left =>
          constructor
          · intro returns
            cases returns
          · rintro ⟨_, returns, _⟩
            cases returns
      | ok value left =>
          constructor
          · intro returns
            cases returns
            exact ⟨rfl, rfl, rfl⟩
          · rintro ⟨_, returns, same⟩
            cases returns
            rcases after with ⟨state, faults⟩
            cases same
            rfl

theorem Tracks.pure (value : α) :
    Tracks (pure value : EStateM ε (Faulty ε σ) α) (pure value) 0 := by
  intro given answer after
  rw [pure_eq_ok, pure_eq_ok, List.drop_zero]
  constructor
  · rintro ⟨rfl, rfl⟩
    exact ⟨clean_zero _, ⟨rfl, rfl⟩, rfl⟩
  · rintro ⟨_, ⟨rfl, state⟩, faults⟩
    rcases after with ⟨_, _⟩
    cases state
    cases faults
    exact ⟨rfl, rfl⟩

theorem Tracks.throw (error : ε) (count : Nat) :
    Tracks (throw error : EStateM ε (Faulty ε σ) α) (throw error) count := by
  intro given answer after
  constructor
  · intro returns
    cases returns
  · rintro ⟨_, returns, _⟩
    cases returns

/-- The number of calls of the rest may depend on what has been answered. -/
theorem Tracks.bind_of {program : EStateM ε (Faulty ε σ) α} {plain : EStateM ε σ α}
    {rest : α → EStateM ε (Faulty ε σ) β} {plainRest : α → EStateM ε σ β} {count more : Nat}
    (first : Tracks program plain count)
    (second : ∀ value, (∃ before after, plain before = .ok value after) →
      Tracks (rest value) (plainRest value) more) :
    Tracks (program >>= rest) (plain >>= plainRest) (count + more) := by
  intro given answer after
  rw [bind_eq_ok, bind_eq_ok, clean_add, ← List.drop_drop]
  constructor
  · rintro ⟨value, between, ran, returns⟩
    rcases (first given value between).mp ran with ⟨clean, plainRan, left⟩
    rcases (second value ⟨_, _, plainRan⟩ between answer after).mp returns with
      ⟨cleanRest, plainReturns, same⟩
    rw [left] at cleanRest same
    exact ⟨⟨clean, cleanRest⟩, ⟨value, between.state, plainRan, plainReturns⟩, same⟩
  · rintro ⟨⟨clean, cleanRest⟩, ⟨value, middle, plainRan, plainReturns⟩, same⟩
    refine ⟨value, ⟨middle, given.faults.drop count⟩,
      (first given value _).mpr ⟨clean, plainRan, rfl⟩, ?_⟩
    exact (second value ⟨_, _, plainRan⟩ _ answer after).mpr ⟨cleanRest, plainReturns, same⟩

theorem Tracks.bind {program : EStateM ε (Faulty ε σ) α} {plain : EStateM ε σ α}
    {rest : α → EStateM ε (Faulty ε σ) β} {plainRest : α → EStateM ε σ β} {count more : Nat}
    (first : Tracks program plain count)
    (second : ∀ value, Tracks (rest value) (plainRest value) more) :
    Tracks (program >>= rest) (plain >>= plainRest) (count + more) :=
  first.bind_of fun value _ => second value

theorem Tracks.ofExcept (given : Except ε α) :
    Tracks (MonadExcept.ofExcept given : EStateM ε (Faulty ε σ) α)
      (MonadExcept.ofExcept given) 0 := by
  cases given with
  | ok value => exact Tracks.pure value
  | error error => exact Tracks.throw error 0

/-! A loop makes the calls of its body once for each item. -/

theorem Tracks.mapM {body : γ → EStateM ε (Faulty ε σ) α} {plain : γ → EStateM ε σ α}
    {count : Nat} (each : ∀ item, Tracks (body item) (plain item) count) (items : List γ) :
    Tracks (items.mapM body) (items.mapM plain) (count * items.length) := by
  induction items with
  | nil =>
      rw [List.mapM_nil, List.mapM_nil]
      exact Tracks.pure []
  | cons item rest induction =>
      rw [List.mapM_cons, List.mapM_cons, List.length_cons, Nat.mul_succ, Nat.add_comm]
      exact (each item).bind fun answer => induction.bind fun answers => Tracks.pure _

theorem Tracks.forM {body : γ → EStateM ε (Faulty ε σ) PUnit}
    {plain : γ → EStateM ε σ PUnit} {count : Nat}
    (each : ∀ item, Tracks (body item) (plain item) count) (items : List γ) :
    Tracks (items.forM body) (items.forM plain) (count * items.length) := by
  induction items with
  | nil => exact Tracks.pure _
  | cons item rest induction =>
      rw [List.length_cons, Nat.mul_succ, Nat.add_comm]
      exact (each item).bind fun _ => induction

/-- What a call preserves, a call that may be hit preserves. -/
theorem Preserves.attempt {invariant : σ → Prop} {call : EStateM ε σ α}
    (keeps : Preserves invariant call) :
    Preserves (fun given : Faulty ε σ => invariant given.state) (attempt call) := by
  intro given holds
  have after := keeps given.state holds
  unfold leaves Foundation.attempt at *
  cases given.faults.head?.join with
  | some error => exact holds
  | none =>
      cases ran : call given.state with
      | ok answer left =>
          rw [ran] at after
          exact after
      | error error left =>
          rw [ran] at after
          exact after

/-! ## Raising without a trace -/

/-- The invariant holds behind the effect whenever it raises. -/
def Undone (invariant : σ → Prop) (effect : EStateM ε σ α) : Prop :=
  ∀ state, invariant state → ∀ error after, effect state = .error error after → invariant after

theorem Undone.of_preserves {invariant : σ → Prop} {effect : EStateM ε σ α}
    (keeps : Preserves invariant effect) : Undone invariant effect :=
  fun _ holds _ _ raises => keeps.raised holds raises

theorem Undone.bind {invariant : σ → Prop} {effect : EStateM ε σ α}
    {rest : α → EStateM ε σ β} (first : Preserves invariant effect)
    (second : ∀ value, Undone invariant (rest value)) : Undone invariant (effect >>= rest) := by
  intro state holds error after raises
  rcases bind_eq_error.mp raises with early | ⟨value, middle, ran, late⟩
  · exact first.raised holds early
  · exact second value middle (first.returned holds ran) error after late

/-- A call that changes nothing when it raises. -/
theorem Undone.attempt {invariant : σ → Prop} {call : EStateM ε σ α}
    (undone : Undone invariant call) :
    Undone (fun given : Faulty ε σ => invariant given.state) (attempt call) := by
  intro given holds error after raises
  unfold Foundation.attempt at raises
  cases hit : given.faults.head?.join with
  | some error =>
      rw [hit] at raises
      cases raises
      exact holds
  | none =>
      rw [hit] at raises
      cases ran : call given.state with
      | ok answer left =>
          rw [ran] at raises
          cases raises
      | error other left =>
          rw [ran] at raises
          cases raises
          exact undone _ holds _ _ ran

end Raphael.Foundation
