import Mathlib.Data.List.Count
import Raphael.Core.Domain
import Raphael.Core.Errors

/-! # Dependency resolution

Kahn's algorithm over plan steps. A plan whose step ids are distinct and that the
resolver orders has every step after its dependencies, and so no cycle. -/

namespace Raphael.Agent.Planner

open Core

namespace DependencyResolver

/-- The check of one dependency of one step. -/
def checkDependency (ids : List String) (step : PlanStep) (dependency : String) :
    Except Error Unit :=
  if dependency = step.id then
    .error (.planValidation ("step " ++ Text.repr step.id ++ " depends on itself"))
  else if dependency ∉ ids then
    .error (.planValidation
      ("step " ++ Text.repr step.id ++ " depends on unknown step " ++ Text.repr dependency))
  else .ok ()

/-- The `while ready` loop: the open dependencies of each step, the queue, and the
ids taken from it. -/
structure Progress where
  incoming : String → Int
  ready : List String
  ordered : List String

/-- `children[dep]`: one entry for each time a step names the dependency. -/
def children (steps : List PlanStep) (dependency : String) : List String :=
  steps.flatMap fun step => List.replicate (step.dependencies.count dependency) step.id

/-- `incoming[id]` before the loop. -/
def incoming (steps : List PlanStep) (id : String) : Int :=
  ((steps.filter (·.id = id)).flatMap (·.dependencies)).length

def start (steps : List PlanStep) : Progress where
  incoming := incoming steps
  ready := (steps.map (·.id)).filter fun id => incoming steps id = 0
  ordered := []

/-- A child of the current step has one open dependency less. -/
def release (progress : Progress) (child : String) : Progress :=
  let left := progress.incoming child - 1
  { progress with
    incoming := Function.update progress.incoming child left
    ready := if left = 0 then progress.ready ++ [child] else progress.ready }

/-- One turn of the loop. -/
def advance (steps : List PlanStep) (progress : Progress) : Progress :=
  match progress.ready with
  | [] => progress
  | current :: rest =>
      (children steps current).foldl release
        { progress with
          ready := rest
          ordered := progress.ordered ++ [current] }

/-- The loop. An id enters the queue once where it is listed with no dependency and
once where its last dependency is taken, so that these turns empty the queue. -/
def drain (steps : List PlanStep) : Progress :=
  (advance steps)^[2 * steps.length] (start steps)

/-- `by_id`: the last step listed under an id. -/
def byId (steps : List PlanStep) (id : String) : Option PlanStep :=
  steps.reverse.find? (·.id = id)

/-- Steps in dependency order. -/
def order (steps : List PlanStep) : Except Error (List PlanStep) := do
  steps.forM fun step =>
    step.dependencies.forM (checkDependency (steps.map (·.id)) step)
  let ordered := (drain steps).ordered
  if ordered.length ≠ steps.length then
    throw (.planValidation "plan contains a dependency cycle")
  return ordered.filterMap (byId steps)

/-! ## What the checks establish -/

/-- The dependencies of the step with this id. -/
def dependencies (steps : List PlanStep) (id : String) : List String :=
  (steps.find? (·.id = id)).elim [] (·.dependencies)

theorem dependencies_of_mem {steps : List PlanStep} (unique : (steps.map (·.id)).Nodup)
    {step : PlanStep} (member : step ∈ steps) :
    dependencies steps step.id = step.dependencies := by
  induction steps with
  | nil => simp at member
  | cons head rest induction =>
      rw [List.map_cons, List.nodup_cons] at unique
      rcases List.mem_cons.mp member with rfl | inside
      · simp [dependencies]
      · have different : head.id ≠ step.id := by
          intro same
          exact unique.1 (same ▸ List.mem_map_of_mem inside)
        simpa [dependencies, different] using induction unique.2 inside

theorem count_children {steps : List PlanStep} (unique : (steps.map (·.id)).Nodup)
    (current id : String) (member : id ∈ steps.map (·.id)) :
    (children steps current).count id = (dependencies steps id).count current := by
  induction steps with
  | nil => simp at member
  | cons head rest induction =>
      rw [List.map_cons, List.nodup_cons] at unique
      have split : children (head :: rest) current =
          List.replicate (head.dependencies.count current) head.id ++ children rest current :=
        rfl
      rw [split, List.count_append, List.count_replicate]
      by_cases same : head.id = id
      · subst same
        have absent : (children rest current).count head.id = 0 := by
          rw [List.count_eq_zero]
          simp only [children, List.mem_flatMap, List.mem_replicate]
          rintro ⟨step, inside, _, equal⟩
          exact unique.1 (equal ▸ List.mem_map_of_mem inside)
        simp [absent, dependencies]
      · have inside : id ∈ rest.map (·.id) := by
          simpa [Ne.symm same] using member
        simp [same, induction unique.2 inside, dependencies]

theorem incoming_of_mem {steps : List PlanStep} (unique : (steps.map (·.id)).Nodup)
    {id : String} (member : id ∈ steps.map (·.id)) :
    incoming steps id = (dependencies steps id).length := by
  induction steps with
  | nil => simp at member
  | cons head rest induction =>
      rw [List.map_cons, List.nodup_cons] at unique
      by_cases same : head.id = id
      · subst same
        have none : rest.filter (·.id = head.id) = [] := by
          rw [List.filter_eq_nil_iff]
          intro step inside
          simp only [decide_eq_true_eq]
          intro equal
          exact unique.1 (equal ▸ List.mem_map_of_mem inside)
        simp [incoming, none, dependencies]
      · have inside : id ∈ rest.map (·.id) := by
          simpa [Ne.symm same] using member
        simpa [incoming, same, dependencies] using induction unique.2 inside

/-! ## The loop

The invariant is indexed by the children of the current step that still wait to be
released: an id has as many open dependencies as it names ids not taken yet, and
one more for each release that is still due. -/

structure Resolving (steps : List PlanStep) (due : List String)
    (progress : Progress) : Prop where
  nodup : (progress.ordered ++ progress.ready).Nodup
  known : ∀ id ∈ progress.ordered ++ progress.ready, id ∈ steps.map (·.id)
  open_eq : ∀ id ∈ steps.map (·.id), progress.incoming id =
    ((dependencies steps id).countP (· ∉ progress.ordered) : Nat) + (due.count id : Nat)
  free_iff : ∀ id ∈ steps.map (·.id),
    id ∈ progress.ordered ++ progress.ready ↔ progress.incoming id = 0
  after : ∀ front id back, progress.ordered = front ++ id :: back →
    ∀ dependency ∈ dependencies steps id, dependency ∈ front

namespace Resolving

variable {steps : List PlanStep} {progress : Progress}

theorem start (unique : (steps.map (·.id)).Nodup) : Resolving steps [] (start steps) where
  nodup := by simpa [DependencyResolver.start] using unique.filter _
  known := by
    intro id member
    simp only [DependencyResolver.start, List.nil_append, List.mem_filter] at member
    exact member.1
  open_eq := by
    intro id member
    simp [DependencyResolver.start, incoming_of_mem unique member]
  free_iff := by
    intro id member
    simpa [DependencyResolver.start] using fun _ => by simpa using member
  after := by simp [DependencyResolver.start]

theorem release {child : String} {due : List String}
    (resolving : Resolving steps (child :: due) progress)
    (inside : child ∈ steps.map (·.id)) :
    Resolving steps due (release progress child) := by
  have positive : progress.incoming child ≠ 0 := by
    rw [resolving.open_eq child inside, List.count_cons_self]
    omega
  have waiting : child ∉ progress.ordered ++ progress.ready := fun member =>
    positive ((resolving.free_iff child inside).mp member)
  have left : progress.incoming child - 1 =
      ((dependencies steps child).countP (· ∉ progress.ordered) : Nat) +
        (due.count child : Nat) := by
    rw [resolving.open_eq child inside, List.count_cons_self]
    push_cast
    omega
  refine ⟨?_, ?_, ?_, ?_, ?_⟩
  · simp only [DependencyResolver.release]
    split
    · rw [← List.append_assoc]
      exact List.Nodup.append resolving.nodup (List.nodup_singleton child)
        (by simpa using waiting)
    · exact resolving.nodup
  · intro id member
    simp only [DependencyResolver.release] at member
    split at member
    · rw [← List.append_assoc] at member
      rcases List.mem_append.mp member with old | new
      · exact resolving.known id old
      · rw [List.mem_singleton.mp new]
        exact inside
    · exact resolving.known id member
  · intro id member
    simp only [DependencyResolver.release]
    by_cases same : id = child
    · subst same
      rw [Function.update_self]
      exact left
    · rw [Function.update_of_ne same, resolving.open_eq id member,
        List.count_cons_of_ne (Ne.symm same)]
      rfl
  · intro id member
    simp only [DependencyResolver.release]
    by_cases same : id = child
    · subst same
      rw [Function.update_self]
      by_cases zero : progress.incoming id - 1 = 0
      · simp [zero]
      · simpa [zero] using waiting
    · rw [Function.update_of_ne same, ← resolving.free_iff id member]
      split <;> simp [same]
  · exact resolving.after

theorem releaseAll {due : List String} (resolving : Resolving steps due progress)
    (inside : ∀ child ∈ due, child ∈ steps.map (·.id)) :
    Resolving steps [] (due.foldl DependencyResolver.release progress) := by
  induction due generalizing progress with
  | nil => exact resolving
  | cons child rest induction =>
      exact induction (resolving.release (inside child (by simp)))
        fun other member => inside other (by simp [member])

theorem take {current : String} {rest : List String}
    (unique : (steps.map (·.id)).Nodup) (resolving : Resolving steps [] progress)
    (queue : progress.ready = current :: rest) :
    Resolving steps (children steps current)
      { progress with
        ready := rest
        ordered := progress.ordered ++ [current] } := by
  have same : progress.ordered ++ [current] ++ rest = progress.ordered ++ progress.ready := by
    simp [queue]
  have inside : current ∈ steps.map (·.id) :=
    resolving.known current (by simp [queue])
  have fresh : current ∉ progress.ordered := by
    have distinct := resolving.nodup
    rw [queue] at distinct
    have apart := (List.nodup_append.mp distinct).2.2
    intro member
    exact apart current member current (by simp) rfl
  refine ⟨?_, ?_, ?_, ?_, ?_⟩
  · simpa only [same] using resolving.nodup
  · simpa only [same] using resolving.known
  · intro id member
    rw [resolving.open_eq id member, count_children unique current id member]
    have split : ∀ named : List String,
        named.countP (· ∉ progress.ordered) =
          named.countP (· ∉ progress.ordered ++ [current]) + named.count current := by
      intro named
      induction named with
      | nil => rfl
      | cons head tail induction =>
          simp only [List.countP_cons, List.count_cons, induction]
          by_cases equal : head = current
          · subst equal
            simp [fresh]
            omega
          · simp [equal]
            omega
    have counted := split (dependencies steps id)
    simp only [List.count_nil]
    omega
  · intro id member
    simpa only [same] using resolving.free_iff id member
  · intro front id back shape dependency named
    rcases List.append_eq_append_iff.mp shape with ⟨middle, first, second⟩ | ⟨middle, first, second⟩
    · cases middle with
      | nil =>
          obtain ⟨rfl, rfl⟩ : current = id ∧ [] = back := by simpa using second
          have zero := (resolving.free_iff current inside).mp (by simp [queue])
          rw [resolving.open_eq current inside, List.count_nil] at zero
          have none : (dependencies steps current).countP (· ∉ progress.ordered) = 0 := by
            omega
          have taken := List.countP_eq_zero.mp none dependency named
          simpa [first] using taken
      | cons head tail => simp at second
    · cases middle with
      | nil =>
          obtain ⟨rfl, rfl⟩ : id = current ∧ back = [] := by simpa using second
          have zero := (resolving.free_iff id inside).mp (by simp [queue])
          rw [resolving.open_eq id inside, List.count_nil] at zero
          have none : (dependencies steps id).countP (· ∉ progress.ordered) = 0 := by
            omega
          have taken := List.countP_eq_zero.mp none dependency named
          simpa [first] using taken
      | cons head tail =>
          obtain ⟨rfl, _⟩ : id = head ∧ back = tail ++ [current] := by simpa using second
          exact resolving.after front id tail first dependency named

theorem advance (unique : (steps.map (·.id)).Nodup)
    (resolving : Resolving steps [] progress) :
    Resolving steps [] (advance steps progress) := by
  unfold DependencyResolver.advance
  cases queue : progress.ready with
  | nil => exact resolving
  | cons current rest =>
      apply (resolving.take unique queue).releaseAll
      intro child member
      simp only [children, List.mem_flatMap, List.mem_replicate] at member
      rcases member with ⟨step, listed, _, rfl⟩
      exact List.mem_map_of_mem listed

theorem drain (unique : (steps.map (·.id)).Nodup) :
    Resolving steps [] (drain steps) := by
  unfold DependencyResolver.drain
  generalize 2 * steps.length = turns
  induction turns with
  | zero => exact .start unique
  | succ turns induction =>
      rw [Function.iterate_succ_apply']
      exact induction.advance unique

end Resolving

theorem ordered_releaseAll (due : List String) (progress : Progress) :
    (due.foldl release progress).ordered = progress.ordered := by
  induction due generalizing progress with
  | nil => rfl
  | cons child rest induction => exact induction (release progress child)

theorem ready_or_length (steps : List PlanStep) (turns : Nat) :
    ((advance steps)^[turns] (start steps)).ready = [] ∨
      ((advance steps)^[turns] (start steps)).ordered.length = turns := by
  induction turns with
  | zero => exact .inr rfl
  | succ turns induction =>
      rw [Function.iterate_succ_apply']
      generalize (advance steps)^[turns] (start steps) = progress at induction
      cases queue : progress.ready with
      | nil => exact .inl (by simp [advance, queue])
      | cons current rest =>
          have counted : progress.ordered.length = turns := by simpa [queue] using induction
          exact .inr (by simp [advance, queue, ordered_releaseAll, counted])

/-- The loop ends with an empty queue. -/
theorem ready_drain {steps : List PlanStep} (unique : (steps.map (·.id)).Nodup) :
    (drain steps).ready = [] := by
  have resolving := Resolving.drain unique
  rcases ready_or_length steps (2 * steps.length) with empty | counted
  · exact empty
  · have nodup := (List.nodup_append.mp resolving.nodup).1
    have inside : (drain steps).ordered ⊆ steps.map (·.id) := fun id member =>
      resolving.known id (List.mem_append_left _ member)
    have bounded := (List.subperm_of_subset nodup inside).length_le
    have counted' : (drain steps).ordered.length = 2 * steps.length := counted
    have none : steps = [] := by
      rw [List.length_map, counted'] at bounded
      exact List.length_eq_zero_iff.mp (by omega)
    subst none
    rfl

/-- The order of a plan ranks every dependency below the step that names it. -/
theorem exists_rank_of_order {steps sorted : List PlanStep}
    (unique : (steps.map (·.id)).Nodup) (accepted : order steps = .ok sorted) :
    ∃ rank : String → Nat, ∀ step ∈ steps, ∀ dependency ∈ step.dependencies,
      rank dependency < rank step.id := by
  have resolving := Resolving.drain unique
  have complete : (drain steps).ordered.length = steps.length := by
    by_contra short
    simp only [order, bind, Except.bind] at accepted
    split at accepted
    · simp at accepted
    · simp [short, throw, throwThe, MonadExceptOf.throw] at accepted
  have nodup := (List.nodup_append.mp resolving.nodup).1
  have covers : ∀ id ∈ steps.map (·.id), id ∈ (drain steps).ordered := by
    have inside : (drain steps).ordered ⊆ steps.map (·.id) := fun id member =>
      resolving.known id (List.mem_append_left _ member)
    have perm := (List.subperm_of_subset nodup inside).perm_of_length_le (by simp [complete])
    exact fun id member => perm.mem_iff.mpr member
  refine ⟨fun id => (drain steps).ordered.idxOf id, fun step member dependency named => ?_⟩
  rcases List.append_of_mem (covers step.id (List.mem_map_of_mem member)) with
    ⟨front, back, shape⟩
  have before := resolving.after front step.id back shape dependency
    (by rwa [dependencies_of_mem unique member])
  have absent : step.id ∉ front := by
    rw [shape] at nodup
    intro inside
    exact (List.nodup_append.mp nodup).2.2 step.id inside step.id (by simp) rfl
  simp only [shape]
  rw [List.idxOf_append_of_mem before, List.idxOf_append_of_notMem absent,
    List.idxOf_cons_self, Nat.add_zero]
  exact List.idxOf_lt_length_of_mem before

end DependencyResolver

end Raphael.Agent.Planner
