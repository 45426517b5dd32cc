import Mathlib.Order.WellFounded

/-! # Outcomes over a dependency relation

Every task of a set depends on tasks of the set. A table of outcomes is settled
when a task was run exactly if all its dependencies succeeded. Over a well-founded
relation there is one settled table, and it is read off the failures alone. -/

namespace Raphael.Foundation

/-- How a task ends. -/
inductive Outcome
  | succeeded
  | failed
  | skipped
  deriving DecidableEq, Repr

variable {Task : Type u} {tasks : Set Task} {dependsOn : Task → Task → Prop}
  {succeeds : Task → Prop} {outcome : Task → Outcome}

/-- The outcome table follows the dependencies: what ran has its own outcome, and
what could not run was skipped. -/
structure Settled (tasks : Set Task) (dependsOn : Task → Task → Prop)
    (succeeds : Task → Prop) (outcome : Task → Outcome) : Prop where
  ran : ∀ task ∈ tasks,
    (∀ dependency, dependsOn task dependency → outcome dependency = .succeeded) →
      (succeeds task ∧ outcome task = .succeeded) ∨
        (¬ succeeds task ∧ outcome task = .failed)
  skipped : ∀ task ∈ tasks, ∀ dependency, dependsOn task dependency →
    outcome dependency ≠ .succeeded → outcome task = .skipped

/-- Dependencies of tasks are tasks, and following them ends. -/
structure WellOrdered (tasks : Set Task) (dependsOn : Task → Task → Prop) : Prop where
  closed : ∀ task ∈ tasks, ∀ dependency, dependsOn task dependency → dependency ∈ tasks
  wellFounded : WellFounded fun dependency task => dependsOn task dependency

namespace Settled

theorem skipped_iff_dependency (settled : Settled tasks dependsOn succeeds outcome)
    {task : Task} (member : task ∈ tasks) :
    outcome task = .skipped ↔
      ∃ dependency, dependsOn task dependency ∧ outcome dependency ≠ .succeeded := by
  constructor
  · intro skipped
    by_contra none
    push Not at none
    rcases settled.ran task member none with ⟨_, other⟩ | ⟨_, other⟩ <;>
      exact absurd (skipped.symm.trans other) (by decide)
  · rintro ⟨dependency, depends, unsuccessful⟩
    exact settled.skipped task member dependency depends unsuccessful

/-- A task is skipped exactly when something it depends on, at any distance,
failed. -/
theorem skipped_iff (settled : Settled tasks dependsOn succeeds outcome)
    (order : WellOrdered tasks dependsOn) {task : Task} (member : task ∈ tasks) :
    outcome task = .skipped ↔
      ∃ dependency, Relation.TransGen dependsOn task dependency ∧
        outcome dependency = .failed := by
  induction task using order.wellFounded.induction with
  | _ task induction =>
      rw [settled.skipped_iff_dependency member]
      constructor
      · rintro ⟨dependency, depends, unsuccessful⟩
        cases ended : outcome dependency with
        | succeeded => exact absurd ended unsuccessful
        | failed => exact ⟨dependency, .single depends, ended⟩
        | skipped =>
            have inside := order.closed task member dependency depends
            rcases (induction dependency depends inside).mp ended with
              ⟨source, path, failed⟩
            exact ⟨source, .head depends path, failed⟩
      · rintro ⟨source, path, failed⟩
        rcases Relation.TransGen.head'_iff.mp path with ⟨dependency, depends, rest⟩
        refine ⟨dependency, depends, ?_⟩
        rcases Relation.reflTransGen_iff_eq_or_transGen.mp rest with rfl | further
        · simp [failed]
        · have inside := order.closed task member dependency depends
          have skipped := (induction dependency depends inside).mpr ⟨source, further, failed⟩
          simp [skipped]

/-- Two settled tables for the same tasks agree. -/
theorem unique {other : Task → Outcome} (order : WellOrdered tasks dependsOn)
    (first : Settled tasks dependsOn succeeds outcome)
    (second : Settled tasks dependsOn succeeds other) {task : Task}
    (member : task ∈ tasks) : outcome task = other task := by
  induction task using order.wellFounded.induction with
  | _ task induction =>
      have agree : ∀ dependency, dependsOn task dependency →
          outcome dependency = other dependency := fun dependency depends =>
        induction dependency depends (order.closed task member dependency depends)
      by_cases blocked :
          ∃ dependency, dependsOn task dependency ∧ outcome dependency ≠ .succeeded
      · rcases blocked with ⟨dependency, depends, unsuccessful⟩
        rw [first.skipped task member dependency depends unsuccessful,
          second.skipped task member dependency depends (agree dependency depends ▸ unsuccessful)]
      · push Not at blocked
        have alsoFree : ∀ dependency, dependsOn task dependency →
            other dependency = .succeeded := fun dependency depends =>
          (agree dependency depends).symm.trans (blocked dependency depends)
        rcases first.ran task member blocked with ⟨holds, ended⟩ | ⟨fails, ended⟩ <;>
          rcases second.ran task member alsoFree with ⟨holds', ended'⟩ | ⟨fails', ended'⟩
        · rw [ended, ended']
        · exact absurd holds fails'
        · exact absurd holds' fails
        · rw [ended, ended']

end Settled

/-- Tasks that a rank orders below what depends on them are well ordered. -/
theorem WellOrdered.of_rank {rank : Task → Nat}
    (closed : ∀ task ∈ tasks, ∀ dependency, dependsOn task dependency → dependency ∈ tasks)
    (lower : ∀ task dependency, dependsOn task dependency → rank dependency < rank task) :
    WellOrdered tasks dependsOn where
  closed := closed
  wellFounded := Subrelation.wf (fun {dependency task} depends => lower task dependency depends)
    (measure rank).wf

end Raphael.Foundation
