import Mathlib.Algebra.Order.BigOperators.Group.List
import Mathlib.Algebra.Order.Ring.Nat
import Raphael.Agent.Executor.TaskGraph
import Raphael.Foundation.StepSystem

/-! # Schedules

What an executor may do to a graph, whatever loop it runs: one state change after
another, each along an edge of the transition table, a step started only behind its
dependencies and only into a free slot. A log of changes is a run of this system. -/

namespace Raphael.Agent.Executor

open Core Foundation

abbrev StateTable := String → StepState

namespace Schedule

/-- The number of steps in flight. -/
def running (graph : TaskGraph) (table : StateTable) : Nat :=
  graph.ids.countP fun id => table id = .running

/-- The changes a schedule admits. -/
structure Admits (graph : TaskGraph) (slots : Nat) (table : StateTable) (change : Change) :
    Prop where
  member : change.stepId ∈ graph.ids
  source : table change.stepId = change.source
  legal : change.target ∈ graphTransitions change.source
  dependencies : change.target = .running →
    ∀ dependency, graph.DependsOn change.stepId dependency → table dependency = .succeeded
  room : change.target = .running →
    running graph (Function.update table change.stepId .running) ≤ slots

open Classical in
/-- The abstract system. -/
noncomputable def step (graph : TaskGraph) (slots : Nat) : StepFunction StateTable Change :=
  fun table change =>
    if Admits graph slots table change then
      some (Function.update table change.stepId change.target)
    else none

/-- The states after the changes of a log. -/
def replay (start : StateTable) (changes : List Change) : StateTable :=
  changes.foldl (fun table change => Function.update table change.stepId change.target)
    start

/-- The times a log starts a step. -/
def starts (changes : List Change) (id : String) : Nat :=
  changes.countP fun change => change.stepId = id ∧ change.target = .running

/-- The log is a run of the abstract system. -/
def Accepted (graph : TaskGraph) (slots : Nat) (start : StateTable)
    (changes : List Change) : Prop :=
  StepFunction.run (step graph slots) start changes = some (replay start changes)

variable {graph : TaskGraph} {slots : Nat} {start table next : StateTable}
  {change : Change} {changes : List Change}

theorem step_eq_some :
    step graph slots table change = some next ↔
      Admits graph slots table change ∧
        next = Function.update table change.stepId change.target := by
  unfold step
  split
  · rename_i admits
    simp [admits, eq_comm]
  · rename_i rejects
    simp [rejects]

theorem replay_append (front back : List Change) :
    replay start (front ++ back) =
      back.foldl (fun table change => Function.update table change.stepId change.target)
        (replay start front) := by
  simp [replay, List.foldl_append]

theorem replay_concat (front : List Change) (change : Change) :
    replay start (front ++ [change]) =
      Function.update (replay start front) change.stepId change.target := by
  simp [replay_append]

theorem run_eq_foldl {table final : StateTable} {changes : List Change}
    (reached : StepFunction.run (step graph slots) table changes = some final) :
    final = changes.foldl
      (fun table change => Function.update table change.stepId change.target) table := by
  induction changes generalizing table with
  | nil => simpa using reached.symm
  | cons change rest induction =>
      rcases StepFunction.run_cons_eq_some.mp reached with ⟨middle, stepped, remaining⟩
      rw [induction remaining, (step_eq_some.mp stepped).2]
      rfl

theorem Accepted.nil : Accepted graph slots start [] := rfl

/-- A log grows by admitted changes. -/
theorem accepted_concat :
    Accepted graph slots start (changes ++ [change]) ↔
      Accepted graph slots start changes ∧ Admits graph slots (replay start changes) change := by
  unfold Accepted
  rw [StepFunction.run_append_eq_some]
  constructor
  · rintro ⟨middle, reached, stepped⟩
    have same : middle = replay start changes := run_eq_foldl reached
    subst same
    rcases StepFunction.run_cons_eq_some.mp stepped with ⟨next, taken, _⟩
    exact ⟨reached, (step_eq_some.mp taken).1⟩
  · rintro ⟨reached, admits⟩
    refine ⟨_, reached, StepFunction.run_cons_eq_some.mpr ⟨_, step_eq_some.mpr ⟨admits, rfl⟩, ?_⟩⟩
    simp [replay_concat]

theorem Accepted.of_append {front back : List Change}
    (accepted : Accepted graph slots start (front ++ back)) : Accepted graph slots start front := by
  induction back using List.reverseRecOn with
  | nil => simpa using accepted
  | append_singleton rest change induction =>
      rw [← List.append_assoc] at accepted
      exact induction (accepted_concat.mp accepted).1

/-- Each change of an accepted log was admitted where it stands. -/
theorem Accepted.admits {front back : List Change}
    (accepted : Accepted graph slots start (front ++ change :: back)) :
    Admits graph slots (replay start front) change := by
  have shape : front ++ change :: back = (front ++ [change]) ++ back := by simp
  rw [shape] at accepted
  exact (accepted_concat.mp accepted.of_append).2

/-- What the log's own changes preserve holds in the states it leads to. -/
theorem Accepted.induction (accepted : Accepted graph slots start changes)
    (Holds : List Change → Prop) (nil : Holds [])
    (concat : ∀ front change, Accepted graph slots start front →
      Admits graph slots (replay start front) change → Holds front → Holds (front ++ [change])) :
    Holds changes := by
  induction changes using List.reverseRecOn with
  | nil => exact nil
  | append_singleton rest change induction =>
      rcases accepted_concat.mp accepted with ⟨before, admits⟩
      exact concat rest change before admits (induction before)

/-! ## What every accepted log satisfies -/

theorem not_terminal_of_legal {source target : StepState}
    (legal : target ∈ graphTransitions source) : source ∉ terminalStepStates := by
  cases source <;> simp_all [graphTransitions, terminalStepStates]

/-- A terminal state is kept by every longer log. -/
theorem Accepted.terminal_kept {front back : List Change}
    (accepted : Accepted graph slots start (front ++ back)) (id : String)
    (terminal : replay start front id ∈ terminalStepStates) :
    replay start (front ++ back) id = replay start front id := by
  induction back using List.reverseRecOn with
  | nil => simp
  | append_singleton rest change induction =>
      rw [← List.append_assoc] at accepted ⊢
      rcases accepted_concat.mp accepted with ⟨before, admits⟩
      have kept := induction before
      rw [replay_concat]
      by_cases same : id = change.stepId
      · subst same
        have open' := not_terminal_of_legal admits.legal
        rw [← admits.source, kept] at open'
        exact absurd terminal open'
      · rw [Function.update_of_ne same, kept]

/-- A state that has changed is the target of one of the changes. -/
theorem exists_change {id : String} (changed : replay start changes id ≠ start id) :
    ∃ change ∈ changes, change.stepId = id ∧ change.target = replay start changes id := by
  induction changes using List.reverseRecOn with
  | nil => exact absurd rfl changed
  | append_singleton front change induction =>
      rw [replay_concat] at changed ⊢
      by_cases same : id = change.stepId
      · subst same
        rw [Function.update_self]
        exact ⟨change, List.mem_append_right _ List.mem_cons_self, rfl, rfl⟩
      · rw [Function.update_of_ne same] at changed ⊢
        rcases induction changed with ⟨other, member, own, target⟩
        exact ⟨other, List.mem_append_left _ member, own, target⟩

theorem replay_of_untouched {id : String} (untouched : id ∉ changes.map (·.stepId)) :
    replay start changes id = start id := by
  by_contra changed
  rcases exists_change changed with ⟨change, member, own, _⟩
  exact untouched (own ▸ List.mem_map_of_mem member)

/-- Only steps that start unsettled change. -/
theorem Accepted.unsettled_of_mem (accepted : Accepted graph slots start changes)
    (member : change ∈ changes) : start change.stepId ∉ terminalStepStates := by
  rcases List.append_of_mem member with ⟨front, back, rfl⟩
  intro settled
  have admits := accepted.admits
  have kept : replay start front change.stepId = start change.stepId :=
    @terminal_kept graph slots start [] front accepted.of_append change.stepId settled
  apply not_terminal_of_legal admits.legal
  rwa [← admits.source, kept]

/-- A change to a terminal state is the last one of its step. -/
theorem Accepted.replay_of_mem (accepted : Accepted graph slots start changes)
    (member : change ∈ changes) (settles : change.target ∈ terminalStepStates) :
    replay start changes change.stepId = change.target := by
  rcases List.append_of_mem member with ⟨front, back, rfl⟩
  have reached : replay start (front ++ [change]) change.stepId = change.target := by
    rw [replay_concat, Function.update_self]
  rw [List.append_cons] at accepted ⊢
  rw [accepted.terminal_kept _ (reached.symm ▸ settles), reached]

theorem Accepted.mem_ids_of_mem (accepted : Accepted graph slots start changes)
    (member : change ∈ changes) : change.stepId ∈ graph.ids := by
  rcases List.append_of_mem member with ⟨front, back, rfl⟩
  exact accepted.admits.member

/-- Steps outside the graph never change. -/
theorem Accepted.mem_ids (accepted : Accepted graph slots start changes) {id : String}
    (changed : replay start changes id ≠ start id) : id ∈ graph.ids := by
  refine accepted.induction
    (fun log => replay start log id ≠ start id → id ∈ graph.ids) ?_ ?_ changed
  · exact fun none => absurd rfl none
  · intro front change _ admits holds moved
    rw [replay_concat] at moved
    by_cases same : id = change.stepId
    · exact same ▸ admits.member
    · rw [Function.update_of_ne same] at moved
      exact holds moved

theorem starts_concat (front : List Change) (change : Change) (id : String) :
    starts (front ++ [change]) id =
      starts front id + if change.stepId = id ∧ change.target = .running then 1 else 0 := by
  simp [starts, List.countP_append, List.countP_singleton]

/-- The states only a started step can be in. -/
def executed : List StepState := [.running, .succeeded, .failed, .timedOut]

theorem Accepted.starts_ne_zero (accepted : Accepted graph slots start changes) {id : String}
    (fresh : start id ∉ executed) (ran : replay start changes id ∈ executed) :
    starts changes id ≠ 0 := by
  refine accepted.induction
    (fun log => replay start log id ∈ executed → starts log id ≠ 0) ?_ ?_ ran
  · exact fun impossible => absurd impossible fresh
  · intro front change _ admits holds reached
    rw [starts_concat]
    rw [replay_concat] at reached
    by_cases same : id = change.stepId
    · subst same
      rw [Function.update_self] at reached
      by_cases begins : change.target = .running
      · simp [begins]
      · have legal := admits.legal
        have running : change.source = .running := by
          cases from_ : change.source <;> cases to_ : change.target <;>
            simp_all [graphTransitions, executed]
        have before := holds (by simp [admits.source, running, executed])
        omega
    · rw [Function.update_of_ne same] at reached
      have before := holds reached
      omega

/-- The steps in flight fit the slots. -/
theorem Accepted.running_le (fits : running graph start ≤ slots)
    (accepted : Accepted graph slots start changes) :
    running graph (replay start changes) ≤ slots := by
  refine accepted.induction (fun log => running graph (replay start log) ≤ slots) ?_ ?_
  · exact fits
  · intro front change _ admits bounded
    rw [replay_concat]
    by_cases begins : change.target = .running
    · rw [begins]
      exact admits.room begins
    · refine le_trans (List.countP_mono_left fun id _ runs => ?_) bounded
      by_cases same : id = change.stepId
      · subst same
        rw [Function.update_self] at runs
        exact absurd (of_decide_eq_true runs) begins
      · rwa [Function.update_of_ne same] at runs

/-! Every change lowers the rank of its step, so a log is at most three changes a
step long. -/

def rank : StepState → Nat
  | .pending => 3
  | .ready => 2
  | .running => 1
  | _ => 0

theorem rank_lt_of_legal {source target : StepState}
    (legal : target ∈ graphTransitions source) : rank target < rank source := by
  cases source <;> cases target <;> simp_all [graphTransitions, rank]

def potential (graph : TaskGraph) (table : StateTable) : Nat :=
  (graph.ids.map fun id => rank (table id)).sum

theorem potential_update_lt (admits : Admits graph slots table change) :
    potential graph (Function.update table change.stepId change.target) <
      potential graph table := by
  refine List.sum_lt_sum _ _ (fun id _ => ?_) ⟨change.stepId, admits.member, ?_⟩
  · by_cases same : id = change.stepId
    · subst same
      rw [Function.update_self, admits.source]
      exact (rank_lt_of_legal admits.legal).le
    · rw [Function.update_of_ne same]
  · rw [Function.update_self, admits.source]
    exact rank_lt_of_legal admits.legal

theorem Accepted.length_le (accepted : Accepted graph slots start changes) :
    changes.length + potential graph (replay start changes) ≤ potential graph start := by
  refine accepted.induction
    (fun log => log.length + potential graph (replay start log) ≤ potential graph start)
    (by simp [replay]) ?_
  intro front change _ admits bounded
  have lower := potential_update_lt admits
  rw [replay_concat, List.length_append, List.length_singleton]
  omega

end Schedule

end Raphael.Agent.Executor
