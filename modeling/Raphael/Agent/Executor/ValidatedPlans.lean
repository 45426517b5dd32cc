import Raphael.Agent.Executor.ExecutorConfluence
import Raphael.Agent.Planner.PlanValidator
import Raphael.Agent.Planner.TopologicalOrder

/-! # Validated plans

A plan that the validator accepts is one that the executor runs to its end. -/

namespace Raphael.Agent.Executor

open Core Foundation
open Agent.Planner

namespace Execution

variable {run : Execution}

/-- Nothing is skipped where nothing fails, so that a call is `COMPLETED` exactly if all of
its steps succeed by themselves. -/
theorem completed_iff (acyclic : run.graph.Acyclic) (calm : run.Calm) {turns : Nat} {loop : Loop}
    (reached : run.after freshNodes turns = .ok loop) (stands : run.finished loop = true) :
    (run.finish loop).1.status = .completed ↔
      ∀ step ∈ run.graph.steps, Succeeds run.world.reply step := by
  have final := finalStates_of_finished acyclic calm reached stands
  refine (overallStatus_eq_completed calm.atEnd).trans ?_
  rw [table_stampCompletion]
  constructor
  · intro succeeded step member
    have ends := succeeded step.id (TaskGraph.mem_ids member)
    rcases final.own step member (by simp [ends]) with ⟨succeeds, _⟩ | ⟨_, failed⟩
    · exact succeeds
    · cases ends.symm.trans failed
  · intro succeeds id listed
    rcases TaskGraph.exists_step listed with ⟨step, member, rfl⟩
    have unskipped : loop.table step.id ≠ .skipped := by
      intro skipped
      rcases (final.skipped_iff _ listed).mp skipped with ⟨dependency, path, failed⟩
      rcases Relation.TransGen.tail'_iff.mp path with ⟨_, _, last⟩
      rcases TaskGraph.exists_step (TaskGraph.mem_ids_of_dependsOn last) with ⟨other, isOther, rfl⟩
      rcases final.own other isOther (by simp [failed]) with ⟨_, ends⟩ | ⟨fails, _⟩
      · cases failed.symm.trans ends
      · exact fails (succeeds other isOther)
    rcases final.own step member unskipped with ⟨_, ends⟩ | ⟨fails, _⟩
    · exact ends
    · exact absurd (succeeds step member) fails

end Execution

end Raphael.Agent.Executor
