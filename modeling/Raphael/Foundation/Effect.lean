import Mathlib.Data.List.Forall2

/-! # Effects with a state and exceptions

What an effect leaves behind, whether it returns or raises, and the rules by which an
invariant of the state is carried through a program. -/

namespace Raphael.Foundation

variable {ε σ α β : Type u}

/-- The state behind an effect that has returned or raised. -/
def leaves (effect : EStateM ε σ α) (state : σ) : σ :=
  match effect state with
  | .ok _ after => after
  | .error _ after => after

/-- The invariant holds behind the effect whenever it holds before it. -/
def Preserves (invariant : σ → Prop) (effect : EStateM ε σ α) : Prop :=
  ∀ state, invariant state → invariant (leaves effect state)

theorem bind_apply (effect : EStateM ε σ α) (rest : α → EStateM ε σ β) (state : σ) :
    (effect >>= rest) state =
      match effect state with
      | .ok answer after => rest answer after
      | .error error after => .error error after := by
  change EStateM.bind effect rest state = _
  unfold EStateM.bind
  cases effect state <;> rfl

/-- An effect and the rest of the program return together. -/
theorem bind_eq_ok {effect : EStateM ε σ α} {rest : α → EStateM ε σ β} {state final : σ}
    {answer : β} :
    (effect >>= rest) state = .ok answer final ↔
      ∃ middle between, effect state = .ok middle between ∧
        rest middle between = .ok answer final := by
  rw [bind_apply]
  cases effect state with
  | ok middle between =>
      constructor
      · intro returns
        exact ⟨middle, between, rfl, returns⟩
      · rintro ⟨_, _, same, returns⟩
        cases same
        exact returns
  | error error after =>
      constructor
      · intro returns
        cases returns
      · rintro ⟨_, _, same, _⟩
        cases same

/-- The effect returns what passes a check, which a run of it tells. -/
def returnsWith (check : α → σ → Bool) (effect : EStateM ε σ α) (state : σ) : Bool :=
  match effect state with
  | .ok answer after => check answer after
  | .error _ _ => false

theorem eq_ok_of_returnsWith {check : α → σ → Bool} {effect : EStateM ε σ α} {state : σ}
    (told : returnsWith check effect state = true) :
    ∃ answer after, effect state = .ok answer after ∧ check answer after = true := by
  unfold returnsWith at told
  split at told
  · next answer after ran => exact ⟨answer, after, ran, told⟩
  · cases told

theorem pure_eq_ok {value answer : α} {state final : σ} :
    (pure value : EStateM ε σ α) state = .ok answer final ↔
      value = answer ∧ state = final := by
  change EStateM.Result.ok value state = _ ↔ _
  simp

theorem pure_apply (value : α) (state : σ) :
    (pure value : EStateM ε σ α) state = .ok value state := rfl

theorem get_bind_apply (rest : σ → EStateM ε σ β) (state : σ) :
    ((get : EStateM ε σ σ) >>= rest) state = rest state state := rfl

/-- A value that is there is handed on. -/
theorem ofExcept_bind_ok {given : Except ε α} {value : α} {rest : α → EStateM ε σ β}
    {state : σ} (isValue : given = .ok value) :
    ((MonadExcept.ofExcept given : EStateM ε σ α) >>= rest) state = rest value state := by
  subst isValue
  rfl

/-- Only a value is handed on, and the state is left. -/
theorem ofExcept_eq_ok {given : Except ε α} {value : α} {state final : σ}
    (returns : (MonadExcept.ofExcept given : EStateM ε σ α) state = .ok value final) :
    given = .ok value ∧ final = state := by
  cases given with
  | ok value =>
      cases returns
      exact ⟨rfl, rfl⟩
  | error error => cases returns

theorem state_of_ofExcept {given : Except ε α} {value : α} {state final : σ}
    (returns : (MonadExcept.ofExcept given : EStateM ε σ α) state = .ok value final) :
    final = state :=
  (ofExcept_eq_ok returns).2

/-- An error that is there ends the program where it stands. -/
theorem ofExcept_bind_error {given : Except ε α} {error : ε} {rest : α → EStateM ε σ β}
    {state : σ} (isError : given = .error error) :
    ((MonadExcept.ofExcept given : EStateM ε σ α) >>= rest) state = .error error state := by
  subst isError
  rfl

/-- A program has raised in its first part, or behind it. -/
theorem bind_eq_error {effect : EStateM ε σ α} {rest : α → EStateM ε σ β} {state final : σ}
    {error : ε} : (effect >>= rest) state = .error error final ↔
      effect state = .error error final ∨
        ∃ answer middle, effect state = .ok answer middle ∧
          rest answer middle = .error error final := by
  rw [bind_apply]
  cases effect state <;> simp

/-- Behind what has returned, the rest of a program leaves what there is. -/
theorem leaves_bind_of_ok {effect : EStateM ε σ α} {rest : α → EStateM ε σ β}
    {state between : σ} {value : α} (returns : effect state = .ok value between) :
    leaves (effect >>= rest) state = leaves (rest value) between := by
  unfold leaves
  rw [bind_apply, returns]

/-- An answer that is only dressed leaves the same. -/
theorem leaves_bind_pure (effect : EStateM ε σ α) (dress : α → β) (state : σ) :
    leaves (effect >>= fun answer => pure (dress answer)) state = leaves effect state := by
  unfold leaves
  rw [bind_apply]
  cases effect state <;> rfl

/-- A handler starts where the effect has raised. -/
theorem tryCatch_apply (effect : EStateM ε σ α) (handler : ε → EStateM ε σ α)
    (state : σ) :
    (tryCatch effect handler : EStateM ε σ α) state =
      match effect state with
      | .ok answer after => .ok answer after
      | .error error after => handler error after := by
  change EStateM.tryCatch effect handler state = _
  unfold EStateM.tryCatch
  cases effect state <;> rfl

/-- Under a handler, a program goes on behind what has returned. -/
theorem tryCatch_of_ok {effect : EStateM ε σ α} {rest : α → EStateM ε σ β}
    {handler : ε → EStateM ε σ β} {state between : σ} {value : α}
    (returns : effect state = .ok value between) :
    (tryCatch (effect >>= rest) handler : EStateM ε σ β) state =
      (tryCatch (rest value) handler : EStateM ε σ β) between := by
  rw [tryCatch_apply, tryCatch_apply, bind_apply, returns]

theorem leaves_tryCatch_of_ok {effect : EStateM ε σ α} {rest : α → EStateM ε σ β}
    {handler : ε → EStateM ε σ β} {state between : σ} {value : α}
    (returns : effect state = .ok value between) :
    leaves (tryCatch (effect >>= rest) handler) state =
      leaves (tryCatch (rest value) handler) between := by
  unfold leaves
  rw [tryCatch_of_ok returns]

/-- Under a handler, only the handler is left of a program that has raised. -/
theorem leaves_tryCatch_of_error {effect : EStateM ε σ α} {rest : α → EStateM ε σ β}
    {handler : ε → EStateM ε σ β} {state between : σ} {error : ε}
    (raises : effect state = .error error between) :
    leaves (tryCatch (effect >>= rest) handler) state = leaves (handler error) between := by
  unfold leaves
  rw [tryCatch_apply, bind_apply, raises]

/-! A loop over a list that collects the answers of its body. -/

section Loop

variable {γ : Type v} {body : γ → EStateM ε σ α}

theorem mapM_cons_of_ok {item : γ} {rest : List γ} {state between after : σ} {answer : α}
    {answers : List α} (returns : body item state = .ok answer between)
    (returned : rest.mapM body between = .ok answers after) :
    (item :: rest).mapM body state = .ok (answer :: answers) after := by
  rw [List.mapM_cons, bind_apply, returns]
  change (rest.mapM body >>= fun others => pure (answer :: others)) between = _
  rw [bind_apply, returned]
  rfl

/-- Where the loop has returned, its body has returned for every item. -/
theorem mapM_eq_ok {related : γ → α → Prop}
    (each : ∀ item state answer after, body item state = .ok answer after → related item answer)
    {items : List γ} {state after : σ} {answers : List α}
    (returns : items.mapM body state = .ok answers after) : List.Forall₂ related items answers := by
  induction items generalizing state answers with
  | nil =>
      cases returns
      exact .nil
  | cons item rest induction =>
      rw [List.mapM_cons] at returns
      rcases bind_eq_ok.mp returns with ⟨answer, between, ran, returns⟩
      rcases bind_eq_ok.mp returns with ⟨others, last, ranRest, returns⟩
      cases returns
      exact .cons (each item state answer between ran) (induction ranRest)

/-- A body that always returns and keeps the invariant makes the loop return and keep
it. -/
theorem mapM_returns (invariant : σ → Prop) (related : γ → α → Prop) {items : List γ}
    (each : ∀ item ∈ items, ∀ state, invariant state →
      ∃ answer after, body item state = .ok answer after ∧ related item answer ∧
        invariant after)
    {state : σ} (holds : invariant state) :
    ∃ answers after, items.mapM body state = .ok answers after ∧
      List.Forall₂ related items answers ∧ invariant after := by
  induction items generalizing state with
  | nil => exact ⟨[], state, rfl, .nil, holds⟩
  | cons item rest induction =>
      rcases each item List.mem_cons_self state holds with
        ⟨answer, between, returns, isRelated, kept⟩
      rcases induction (fun other member => each other (List.mem_cons_of_mem _ member)) kept
        with ⟨answers, after, later, areRelated, last⟩
      exact ⟨answer :: answers, after, mapM_cons_of_ok returns later,
        .cons isRelated areRelated, last⟩

/-- The invariant of a loop, indexed by the items that are left, and what holds where its
body has raised. -/
theorem mapM_indexed (invariant : List γ → σ → Prop) (failed : σ → Prop)
    (returned : ∀ item rest state answer after, invariant (item :: rest) state →
      body item state = .ok answer after → invariant rest after)
    (raised : ∀ item rest state error after, invariant (item :: rest) state →
      body item state = .error error after → failed after)
    {items : List γ} {state : σ} (holds : invariant items state) :
    (∀ answers after, items.mapM body state = .ok answers after → invariant [] after) ∧
      ∀ error after, items.mapM body state = .error error after → failed after := by
  induction items generalizing state with
  | nil =>
      refine ⟨fun answers after returns => ?_, fun error after raises => ?_⟩
      · cases returns
        exact holds
      · cases raises
  | cons item rest induction =>
      rw [List.mapM_cons, bind_apply]
      cases ran : body item state with
      | error error after =>
          refine ⟨fun answers other returns => ?_, fun _ other raises => ?_⟩
          · cases returns
          · cases raises
            exact raised item rest state error after holds ran
      | ok answer between =>
          have later := induction (returned item rest state answer between holds ran)
          dsimp only
          rw [bind_apply]
          cases ranRest : rest.mapM body between with
          | ok answers after =>
              refine ⟨fun _ other returns => ?_, fun _ other raises => ?_⟩
              · cases returns
                exact later.1 answers after ranRest
              · cases raises
          | error error after =>
              refine ⟨fun _ other returns => ?_, fun _ other raises => ?_⟩
              · cases returns
              · cases raises
                exact later.2 error after ranRest

end Loop

section FilterLoop

variable {ε σ γ : Type} {keep : γ → EStateM ε σ Bool}

/-- A body that always returns what a test says makes the loop return what passes it. The
invariant is indexed by the items that are left. -/
theorem filterM_returns (test : γ → Bool) (invariant : List γ → σ → Prop)
    (each : ∀ item rest state, invariant (item :: rest) state →
      ∃ after, keep item state = .ok (test item) after ∧ invariant rest after)
    {items : List γ} {state : σ} (holds : invariant items state) :
    ∃ after, items.filterM keep state = .ok (items.filter test) after := by
  have collects : ∀ (items kept : List γ) (state : σ), invariant items state →
      ∃ after, items.filterAuxM keep kept state =
        .ok ((items.filter test).reverse ++ kept) after := by
    intro items
    induction items with
    | nil => exact fun kept state _ => ⟨state, rfl⟩
    | cons item rest induction =>
        intro kept state holds
        rcases each item rest state holds with ⟨between, ran, left⟩
        rcases induction (cond (test item) (item :: kept) kept) between left with ⟨after, later⟩
        refine ⟨after, ?_⟩
        rw [List.filterAuxM, bind_apply, ran]
        dsimp only
        rw [later]
        cases passes : test item
        · rw [List.filter_cons_of_neg (Bool.eq_false_iff.mp passes)]
          rfl
        · rw [List.filter_cons_of_pos passes, List.reverse_cons, List.append_assoc]
          rfl
  rcases collects items [] state holds with ⟨after, returns⟩
  refine ⟨after, ?_⟩
  rw [List.filterM, bind_apply, returns]
  change EStateM.Result.ok _ after = _
  rw [List.append_nil, List.reverse_reverse]

end FilterLoop

namespace Preserves

variable {invariant : σ → Prop} {effect : EStateM ε σ α}

/-- What holds behind an effect that has returned. -/
theorem returned (keeps : Preserves invariant effect) {state final : σ} {answer : α}
    (holds : invariant state) (returns : effect state = .ok answer final) :
    invariant final := by
  have after := keeps state holds
  rw [leaves, returns] at after
  exact after

/-- What holds behind an effect that has raised. -/
theorem raised (keeps : Preserves invariant effect) {state final : σ} {error : ε}
    (holds : invariant state) (raises : effect state = .error error final) :
    invariant final := by
  have after := keeps state holds
  rw [leaves, raises] at after
  exact after

theorem pure (value : α) : Preserves invariant (pure value : EStateM ε σ α) :=
  fun _ holds => holds

theorem throw (error : ε) : Preserves invariant (throw error : EStateM ε σ α) :=
  fun _ holds => holds

theorem get : Preserves invariant (get : EStateM ε σ σ) :=
  fun _ holds => holds

theorem modify {change : σ → σ} (keeps : ∀ state, invariant state → invariant (change state)) :
    Preserves invariant (modify change : EStateM ε σ PUnit) :=
  keeps

/-- The rest of a program may rely on what the effect answers. -/
theorem bind_of {answers : α → Prop} {rest : α → EStateM ε σ β}
    (first : Preserves invariant effect)
    (answer : ∀ state value after, invariant state → effect state = .ok value after →
      answers value)
    (second : ∀ value, answers value → Preserves invariant (rest value)) :
    Preserves invariant (effect >>= rest) := by
  intro state holds
  unfold leaves
  rw [bind_apply]
  cases ran : effect state with
  | ok value after =>
      exact second value (answer state value after holds ran) after (first.returned holds ran)
  | error error after => exact first.raised holds ran

theorem bind {rest : α → EStateM ε σ β} (first : Preserves invariant effect)
    (second : ∀ value, Preserves invariant (rest value)) :
    Preserves invariant (effect >>= rest) :=
  first.bind_of (fun _ _ _ _ _ => trivial) fun value _ => second value

theorem tryCatch {handler : ε → EStateM ε σ α} (body : Preserves invariant effect)
    (handled : ∀ error, Preserves invariant (handler error)) :
    Preserves invariant (tryCatch effect handler) := by
  intro state holds
  unfold leaves
  rw [tryCatch_apply]
  cases ran : effect state with
  | ok value after => exact body.returned holds ran
  | error error after => exact handled error after (body.raised holds ran)

theorem ofExcept (answer : Except ε α) :
    Preserves invariant (MonadExcept.ofExcept answer : EStateM ε σ α) := by
  cases answer with
  | ok value => exact pure value
  | error error => exact throw error

/-! A loop over a list preserves what its body does. -/

theorem forM {γ : Type v} {body : γ → EStateM ε σ PUnit} {items : List γ}
    (each : ∀ item ∈ items, Preserves invariant (body item)) :
    Preserves invariant (items.forM body) := by
  induction items with
  | nil => exact pure _
  | cons item rest induction =>
      exact (each item List.mem_cons_self).bind fun _ =>
        induction fun other member => each other (List.mem_cons_of_mem _ member)

theorem foldlM {γ : Type v} {body : α → γ → EStateM ε σ α}
    (each : ∀ value item, Preserves invariant (body value item)) (items : List γ)
    (value : α) : Preserves invariant (items.foldlM body value) := by
  induction items generalizing value with
  | nil => exact pure value
  | cons item rest induction =>
      rw [List.foldlM_cons]
      exact (each value item).bind fun next => induction next

theorem mapM_of_mem {γ : Type v} {body : γ → EStateM ε σ α} {items : List γ}
    (each : ∀ item ∈ items, Preserves invariant (body item)) :
    Preserves invariant (items.mapM body) := by
  induction items with
  | nil =>
      rw [List.mapM_nil]
      exact pure _
  | cons item rest induction =>
      rw [List.mapM_cons]
      apply (each item List.mem_cons_self).bind fun _ => ?_
      exact (induction fun other member => each other (List.mem_cons_of_mem _ member)).bind
        fun _ => pure _

theorem mapM {γ : Type v} {body : γ → EStateM ε σ α}
    (each : ∀ item, Preserves invariant (body item)) (items : List γ) :
    Preserves invariant (items.mapM body) :=
  mapM_of_mem fun item _ => each item

private theorem filterAuxM {ε σ γ : Type} {keep : γ → EStateM ε σ Bool}
    {invariant : σ → Prop} (each : ∀ item, Preserves invariant (keep item))
    (items kept : List γ) : Preserves invariant (items.filterAuxM keep kept) := by
  induction items generalizing kept with
  | nil => exact pure _
  | cons item rest induction => exact (each item).bind fun _ => induction _

theorem filterM {ε σ γ : Type} {keep : γ → EStateM ε σ Bool} {invariant : σ → Prop}
    (each : ∀ item, Preserves invariant (keep item)) (items : List γ) :
    Preserves invariant (items.filterM keep) :=
  (filterAuxM each items []).bind fun _ => pure _

end Preserves

/-- Every exception of the effect is of a kind. -/
def RaisesOnly (kind : ε → Prop) (effect : EStateM ε σ α) : Prop :=
  ∀ state error final, effect state = .error error final → kind error

namespace RaisesOnly

variable {kind : ε → Prop} {effect : EStateM ε σ α}

theorem of_returns (returns : ∀ state, ∃ answer final, effect state = .ok answer final) :
    RaisesOnly kind effect := by
  intro state error final raises
  rcases returns state with ⟨answer, other, isOk⟩
  rw [isOk] at raises
  cases raises

theorem pure (value : α) : RaisesOnly kind (pure value : EStateM ε σ α) :=
  of_returns fun state => ⟨value, state, rfl⟩

theorem throw {error : ε} (isKind : kind error) :
    RaisesOnly kind (throw error : EStateM ε σ α) := by
  intro state other final raises
  cases raises
  exact isKind

/-- The rest of a program may rely on what the effect answers. -/
theorem bind_of {answers : α → Prop} {rest : α → EStateM ε σ β}
    (first : RaisesOnly kind effect)
    (answer : ∀ state value after, effect state = .ok value after → answers value)
    (second : ∀ value, answers value → RaisesOnly kind (rest value)) :
    RaisesOnly kind (effect >>= rest) := by
  intro state error final raises
  rcases bind_eq_error.mp raises with early | ⟨value, middle, ran, late⟩
  · exact first state error final early
  · exact second value (answer state value middle ran) middle error final late

theorem bind {rest : α → EStateM ε σ β} (first : RaisesOnly kind effect)
    (second : ∀ value, RaisesOnly kind (rest value)) : RaisesOnly kind (effect >>= rest) :=
  first.bind_of (fun _ _ _ _ => trivial) fun value _ => second value

theorem mapM {γ : Type v} {body : γ → EStateM ε σ α}
    (each : ∀ item, RaisesOnly kind (body item)) (items : List γ) :
    RaisesOnly kind (items.mapM body) := by
  induction items with
  | nil => exact pure []
  | cons item rest induction =>
      rw [List.mapM_cons]
      exact (each item).bind fun _ => induction.bind fun _ => pure _

end RaisesOnly

end Raphael.Foundation
