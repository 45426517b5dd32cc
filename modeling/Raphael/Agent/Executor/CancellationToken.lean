import Mathlib.Algebra.Ring.Int.Defs
import Mathlib.Order.Lattice
import Raphael.Foundation.StepSystem

/-! # Cancellation tokens

The tokens that `child` hangs under one another: the events that are set on them, the
deadlines that the clock reaches, and what a token takes over from those above it. -/

namespace Raphael.Agent.Executor

open Foundation

/-- A token with its parent by its number. The tokens are numbered in the order in which they
are made. -/
structure CancellationToken (Time : Type) where
  event : Bool := false
  parent : Option Nat := none
  deadline : Option Time := none

/-- The tokens that have been made, the newest first. -/
abbrev Tokens (Time : Type) := List (CancellationToken Time)

variable {Time : Type}

/-! ## The tokens -/

namespace Tokens

def token : Tokens Time → Nat → Option (CancellationToken Time)
  | [], _ => none
  | newest :: older, number => if number = older.length then some newest else token older number

def deadline (tokens : Tokens Time) (number : Nat) : Option Time :=
  (token tokens number).bind CancellationToken.deadline

def cancel (number : Nat) : Tokens Time → Tokens Time
  | [] => []
  | newest :: older =>
      if number = older.length then { newest with event := true } :: older
      else newest :: cancel number older

/-- `parent` is the parent of the token of the number. -/
def Parent (tokens : Tokens Time) (parent number : Nat) : Prop :=
  ∃ held, token tokens number = some held ∧ held.parent = some parent

def Ancestor (tokens : Tokens Time) : Nat → Nat → Prop := Relation.TransGen (Parent tokens)

theorem token_lt {tokens : Tokens Time} {number : Nat} {held : CancellationToken Time}
    (found : tokens.token number = some held) : number < tokens.length := by
  induction tokens with
  | nil => cases found
  | cons newest older induction =>
      simp only [token] at found
      split at found
      · next same => simp [same]
      · exact Nat.lt_succ_of_lt (induction found)

theorem token_cons {newest : CancellationToken Time} {older : Tokens Time} {number : Nat}
    (old : number < older.length) : token (newest :: older) number = older.token number := by
  simp [token, old.ne]

@[simp] theorem length_cancel (number : Nat) (tokens : Tokens Time) :
    (tokens.cancel number).length = tokens.length := by
  induction tokens with
  | nil => rfl
  | cons newest older induction =>
      simp only [cancel]
      split <;> simp [induction]

theorem token_cancel (number other : Nat) (tokens : Tokens Time) :
    (tokens.cancel number).token other =
      (tokens.token other).map fun held =>
        if other = number then { held with event := true } else held := by
  induction tokens with
  | nil => rfl
  | cons newest older induction =>
      simp only [cancel]
      split
      · next same =>
          subst same
          simp only [token]
          split
          · simp
          · cases token older other <;> simp
      · next apart =>
          simp only [token, length_cancel]
          split
          · next here => simp [here, Ne.symm apart]
          · exact induction

end Tokens

section Clock

variable [LinearOrder Time]

def CancellationToken.deadlineReached (now : Time) (held : CancellationToken Time) : Bool :=
  held.deadline.any fun deadline => decide (deadline ≤ now)

namespace Tokens

/-- The property `cancelled` of a token, read at a moment. A parent is always older than its
children, so the search goes on in the older tokens. -/
def cancelled (now : Time) : Tokens Time → Nat → Bool
  | [], _ => false
  | newest :: older, number =>
      if number = older.length then
        newest.event || newest.parent.any (cancelled now older) || newest.deadlineReached now
      else cancelled now older number

variable [Add Time] [Zero Time]

/-- The deadline of a child that is made now. -/
def childDeadline (now : Time) (timeoutS limit : Option Time) : Option Time :=
  let deadline := timeoutS.map fun timeout => now + max timeout 0
  match limit with
  | none => deadline
  | some limit =>
      match deadline with
      | none => some limit
      | some deadline => some (min deadline limit)

def child (now : Time) (number : Nat) (timeoutS : Option Time) (tokens : Tokens Time) :
    Option (Tokens Time) :=
  (token tokens number).map fun held =>
    { parent := some number, deadline := childDeadline now timeoutS held.deadline } :: tokens

end Tokens

/-! ## Runs -/

structure TokenWorld (Time : Type) where
  tokens : Tokens Time := []
  now : Time

inductive TokenAction (Time : Type)
  | create (deadline : Option Time)
  | child (number : Nat) (timeoutS : Option Time)
  | cancel (number : Nat)
  | tick (now : Time)

namespace TokenWorld

variable [Add Time] [Zero Time]

/-- No method is called on a token that has not been made, and the clock does not go back. -/
def step : StepFunction (TokenWorld Time) (TokenAction Time) := fun world action =>
  match action with
  | .create deadline => some { world with tokens := { deadline } :: world.tokens }
  | .child number timeoutS =>
      (world.tokens.child world.now number timeoutS).map fun tokens => { world with tokens }
  | .cancel number =>
      (world.tokens.token number).map fun _ =>
        { world with tokens := world.tokens.cancel number }
  | .tick now => if world.now ≤ now then some { world with now } else none

def cancelled (world : TokenWorld Time) (number : Nat) : Bool :=
  world.tokens.cancelled world.now number

end TokenWorld

/-! ## Tokens under tokens -/

namespace Tokens

theorem cancelled_cons {now : Time} {newest : CancellationToken Time} {older : Tokens Time}
    {number : Nat} (old : number < older.length) :
    cancelled now (newest :: older) number = older.cancelled now number := by
  simp [cancelled, old.ne]

/-- Every deadline that the second has, the first has too or has an earlier one. -/
def NotLater (own limit : Option Time) : Prop :=
  ∀ latest, limit = some latest → ∃ deadline, own = some deadline ∧ deadline ≤ latest

theorem NotLater.trans {first second third : Option Time} (lower : NotLater first second)
    (upper : NotLater second third) : NotLater first third := by
  intro latest isLatest
  rcases upper latest isLatest with ⟨middle, isMiddle, early⟩
  rcases lower middle isMiddle with ⟨deadline, isDeadline, earlier⟩
  exact ⟨deadline, isDeadline, earlier.trans early⟩

/-- The tokens as `child` makes them: each under an older one, whose deadline it keeps. -/
def Formed : Tokens Time → Prop
  | [] => True
  | newest :: older =>
      Formed older ∧ ∀ parent, newest.parent = some parent →
        ∃ above, token older parent = some above ∧ NotLater newest.deadline above.deadline

theorem Formed.cancel {tokens : Tokens Time} (formed : tokens.Formed) (number : Nat) :
    (tokens.cancel number).Formed := by
  induction tokens with
  | nil => trivial
  | cons newest older induction =>
      simp only [Tokens.cancel]
      split
      · exact formed
      · refine ⟨induction formed.1, fun parent under => ?_⟩
        rcases formed.2 parent under with ⟨above, found, early⟩
        refine ⟨_, by rw [token_cancel, found]; rfl, ?_⟩
        split <;> exact early

/-- What is known of a token that is under another one. -/
theorem Formed.parent {tokens : Tokens Time} (formed : tokens.Formed) {parent number : Nat}
    (under : tokens.Parent parent number) :
    parent < number ∧ NotLater (tokens.deadline number) (tokens.deadline parent) := by
  rcases under with ⟨held, found, under⟩
  induction tokens with
  | nil => cases found
  | cons newest older induction =>
      have parentOf : ∀ {above}, token older parent = some above →
          deadline (newest :: older) parent = above.deadline := by
        intro above isAbove
        simp [deadline, token_cons (token_lt isAbove), isAbove]
      by_cases here : number = older.length
      · have same : newest = held := by simpa [token, here] using found
        subst same
        rcases formed.2 parent under with ⟨above, isAbove, early⟩
        refine ⟨here ▸ token_lt isAbove, ?_⟩
        rw [parentOf isAbove]
        simpa [deadline, token, here] using early
      · have foundOlder : token older number = some held := by simpa [token, here] using found
        rcases induction formed.1 foundOlder with ⟨before, early⟩
        have old : number < older.length := token_lt foundOlder
        refine ⟨before, ?_⟩
        simpa [deadline, token_cons old, token_cons (before.trans old)] using early

/-- The property of a token is read off its own event, its parent and its deadline. -/
theorem Formed.cancelled_eq {tokens : Tokens Time} (formed : tokens.Formed) (now : Time)
    {number : Nat} {held : CancellationToken Time} (found : tokens.token number = some held) :
    tokens.cancelled now number =
      (held.event || held.parent.any (tokens.cancelled now) || held.deadlineReached now) := by
  induction tokens with
  | nil => cases found
  | cons newest older induction =>
      by_cases here : number = older.length
      · have same : newest = held := by simpa [token, here] using found
        subst same
        have parentOf : newest.parent.any (cancelled now (newest :: older)) =
            newest.parent.any (cancelled now older) := by
          cases under : newest.parent with
          | none => rfl
          | some parent =>
              rcases formed.2 parent under with ⟨above, isAbove, _⟩
              simp [cancelled_cons (token_lt isAbove)]
        rw [parentOf]
        simp [cancelled, here]
      · have foundOlder : token older number = some held := by simpa [token, here] using found
        rw [cancelled_cons (token_lt foundOlder), induction formed.1 foundOlder]
        cases under : held.parent with
        | none => rfl
        | some parent =>
            have before := (Formed.parent formed.1 ⟨held, foundOlder, under⟩).1
            simp [cancelled_cons (before.trans (token_lt foundOlder))]

theorem Formed.cancelled_of_parent {tokens : Tokens Time} (formed : tokens.Formed) {now : Time}
    {parent number : Nat} (under : tokens.Parent parent number)
    (stopped : tokens.cancelled now parent = true) : tokens.cancelled now number = true := by
  rcases under with ⟨held, found, isParent⟩
  simp [formed.cancelled_eq now found, isParent, stopped]

theorem Formed.inherits {tokens : Tokens Time} (formed : tokens.Formed) {now : Time}
    {ancestor number : Nat} (above : tokens.Ancestor ancestor number) :
    NotLater (tokens.deadline number) (tokens.deadline ancestor) ∧
      (tokens.cancelled now ancestor = true → tokens.cancelled now number = true) := by
  induction above with
  | single under => exact ⟨(formed.parent under).2, formed.cancelled_of_parent under⟩
  | tail _ under inherited =>
      refine ⟨(formed.parent under).2.trans inherited.1, fun stopped => ?_⟩
      exact formed.cancelled_of_parent under (inherited.2 stopped)

theorem cancelled_of_none {tokens : Tokens Time} (now : Time) {number : Nat}
    (missing : tokens.token number = none) : tokens.cancelled now number = false := by
  induction tokens with
  | nil => rfl
  | cons newest older induction =>
      by_cases here : number = older.length
      · simp [token, here] at missing
      · simp only [token, if_neg here] at missing
        simpa [cancelled, here] using induction missing

end Tokens

/-! ## Every run -/

namespace TokenWorld

/-- The later of two worlds: the clock may have moved and events may have been set, but no token
has lost its parent or its deadline. -/
structure Later (world next : TokenWorld Time) : Prop where
  clock : world.now ≤ next.now
  kept : ∀ number held, world.tokens.token number = some held →
    ∃ same, next.tokens.token number = some same ∧ same.parent = held.parent ∧
      same.deadline = held.deadline ∧ (held.event = true → same.event = true)

theorem Later.refl (world : TokenWorld Time) : Later world world :=
  ⟨le_rfl, fun _ held found => ⟨held, found, rfl, rfl, id⟩⟩

theorem Later.trans {first second third : TokenWorld Time} (before : Later first second)
    (after : Later second third) : Later first third := by
  refine ⟨before.clock.trans after.clock, fun number held found => ?_⟩
  rcases before.kept number held found with ⟨middle, isMiddle, parent, deadline, event⟩
  rcases after.kept number middle isMiddle with ⟨last, isLast, parent', deadline', event'⟩
  exact ⟨last, isLast, parent'.trans parent, deadline'.trans deadline, event' ∘ event⟩

/-- A cancelled token is cancelled later too. -/
theorem Later.cancelled {world next : TokenWorld Time} (later : Later world next)
    (formed : world.tokens.Formed) (formedNext : next.tokens.Formed) {number : Nat}
    (stopped : world.cancelled number = true) : next.cancelled number = true := by
  -- By induction on the number, since a token may be cancelled through its parent.
  induction number using Nat.strong_induction_on with
  | _ number induction =>
      simp only [TokenWorld.cancelled] at stopped induction ⊢
      cases found : world.tokens.token number with
      | none => rw [Tokens.cancelled_of_none world.now found] at stopped; cases stopped
      | some held =>
          rcases later.kept number held found with ⟨same, isSame, parent, deadline, event⟩
          rw [formed.cancelled_eq world.now found] at stopped
          rw [formedNext.cancelled_eq next.now isSame, parent]
          simp only [Bool.or_eq_true, Option.any_eq_true,
            CancellationToken.deadlineReached, decide_eq_true_eq] at stopped ⊢
          rw [deadline]
          rcases stopped with (isSet | ⟨above, isAbove, stoppedAbove⟩) | ⟨limit, isLimit, reached⟩
          · exact .inl (.inl (event isSet))
          · have before := (formed.parent ⟨held, found, isAbove⟩).1
            exact .inl (.inr ⟨above, isAbove, induction above before stoppedAbove⟩)
          · exact .inr ⟨limit, isLimit, reached.trans later.clock⟩

variable [Add Time] [Zero Time]

end TokenWorld

end Clock

end Raphael.Agent.Executor
