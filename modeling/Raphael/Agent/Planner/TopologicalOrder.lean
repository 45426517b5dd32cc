import Raphael.Agent.Planner.DependencyResolver
import Raphael.Foundation.CreationOrder
import Raphael.Foundation.FallibleFold

/-! # Topological order

The resolver orders steps with distinct ids exactly when every dependency is known and
none leads back to its step. -/

namespace Raphael.Agent.Planner

open Core Foundation

namespace DependencyResolver

/-- The step under the first id names the second. -/
def DependsOn (steps : List PlanStep) (id dependency : String) : Prop :=
  ∃ step ∈ steps, step.id = id ∧ dependency ∈ step.dependencies

def DependenciesKnown (steps : List PlanStep) : Prop :=
  ∀ step ∈ steps, ∀ dependency ∈ step.dependencies, dependency ∈ steps.map (·.id)

def AcyclicDependencies (steps : List PlanStep) : Prop :=
  ∀ id, ¬ Relation.TransGen (DependsOn steps) id id

/-- The same steps, each behind all its dependencies. -/
structure Sorts (steps sorted : List PlanStep) : Prop where
  perm : sorted.Perm steps
  behind : ∀ front step back, sorted = front ++ step :: back →
    ∀ dependency ∈ step.dependencies, dependency ∈ front.map (·.id)

variable {steps sorted : List PlanStep}

/-! ## The checks -/

theorem checkDependency_eq_ok {ids : List String} {step : PlanStep} {dependency : String} :
    checkDependency ids step dependency = .ok () ↔
      dependency ≠ step.id ∧ dependency ∈ ids := by
  unfold checkDependency
  by_cases same : dependency = step.id
  · simp [same]
  · by_cases known : dependency ∈ ids <;> simp [same, known]

theorem checkDependency_eq_error {ids : List String} {step : PlanStep} {dependency : String}
    {error : Error} (failed : checkDependency ids step dependency = .error error) :
    ∃ message, error = .planValidation message := by
  unfold checkDependency at failed
  split at failed
  · cases failed
    exact ⟨_, rfl⟩
  · split at failed <;> cases failed
    exact ⟨_, rfl⟩

/-- The loops before the queue is built. -/
def checkDependencies (steps : List PlanStep) : Except Error Unit :=
  steps.forM fun step => step.dependencies.forM (checkDependency (steps.map (·.id)) step)

theorem checkDependencies_eq_ok :
    checkDependencies steps = .ok () ↔ ∀ step ∈ steps, ∀ dependency ∈ step.dependencies,
      dependency ≠ step.id ∧ dependency ∈ steps.map (·.id) := by
  unfold checkDependencies
  rw [forM_eq_ok]
  refine forall₂_congr fun step _ => ?_
  rw [forM_eq_ok]
  exact forall₂_congr fun dependency _ => checkDependency_eq_ok

theorem order_eq (steps : List PlanStep) :
    order steps = (checkDependencies steps).bind fun _ =>
      if (drain steps).ordered.length = steps.length then
        .ok ((drain steps).ordered.filterMap (byId steps))
      else .error (.planValidation "plan contains a dependency cycle") := by
  unfold order checkDependencies
  by_cases complete : (drain steps).ordered.length = steps.length <;>
    simp only [complete, ne_eq, not_true_eq_false, not_false_eq_true, if_true, if_false] <;> rfl

/-- Steps are ordered, or the plan is refused. -/
theorem order_eq_error {error : Error} (failed : order steps = .error error) :
    ∃ message, error = .planValidation message := by
  rw [order_eq] at failed
  cases checked : checkDependencies steps with
  | error other =>
      rw [checked] at failed
      cases failed
      rcases exists_of_forM_error checked with ⟨step, _, inside⟩
      rcases exists_of_forM_error inside with ⟨dependency, _, refused⟩
      exact checkDependency_eq_error refused
  | ok done =>
      rw [checked] at failed
      dsimp only [Except.bind] at failed
      split at failed <;> cases failed
      exact ⟨_, rfl⟩

theorem order_eq_ok :
    order steps = .ok sorted ↔
      (∀ step ∈ steps, ∀ dependency ∈ step.dependencies,
        dependency ≠ step.id ∧ dependency ∈ steps.map (·.id)) ∧
      (drain steps).ordered.length = steps.length ∧
      (drain steps).ordered.filterMap (byId steps) = sorted := by
  rw [order_eq, ← checkDependencies_eq_ok]
  cases checkDependencies steps with
  | error other => simp [Except.bind]
  | ok done =>
      by_cases complete : (drain steps).ordered.length = steps.length <;>
        simp [Except.bind, complete]

/-! ## What is taken from the queue -/

theorem byId_of_mem (unique : (steps.map (·.id)).Nodup) {step : PlanStep}
    (member : step ∈ steps) : byId steps step.id = some step := by
  unfold byId
  cases found : steps.reverse.find? (·.id = step.id) with
  | none =>
      have absent := List.find?_eq_none.mp found step (List.mem_reverse.mpr member)
      simp at absent
  | some other =>
      have same : other.id = step.id := by simpa using List.find?_some found
      have listed : other ∈ steps := List.mem_reverse.mp (List.mem_of_find?_eq_some found)
      exact congrArg some (List.inj_on_of_nodup_map unique listed member same)

/-- The steps with the given ids, where these are known. -/
theorem map_id_filterMap_byId {ids : List String} (known : ids ⊆ steps.map (·.id)) :
    (ids.filterMap (byId steps)).map (·.id) = ids := by
  induction ids with
  | nil => rfl
  | cons id rest induction =>
      have named : id ∈ steps.map (·.id) := known List.mem_cons_self
      have later := induction fun other member => known (List.mem_cons_of_mem id member)
      rcases List.mem_map.mp named with ⟨step, member, same⟩
      cases found : byId steps id with
      | none =>
          have absent := List.find?_eq_none.mp found step (List.mem_reverse.mpr member)
          simp [same] at absent
      | some other =>
          have isId : other.id = id := by simpa using List.find?_some found
          rw [List.filterMap_cons_some found, List.map_cons, isId, later]

/-- Where the loop takes every step, it has sorted them. -/
theorem sorts_of_complete (unique : (steps.map (·.id)).Nodup)
    (complete : (drain steps).ordered.length = steps.length) :
    Sorts steps ((drain steps).ordered.filterMap (byId steps)) := by
  have resolving := Resolving.drain unique
  have nodup := (List.nodup_append.mp resolving.nodup).1
  have known : (drain steps).ordered ⊆ steps.map (·.id) := fun id member =>
    resolving.known id (List.mem_append_left _ member)
  have ids := map_id_filterMap_byId known
  constructor
  · have perm : (drain steps).ordered.Perm (steps.map (·.id)) :=
      (List.subperm_of_subset nodup known).perm_of_length_le (by simp [complete])
    have listed : (steps.map (·.id)).filterMap (byId steps) = steps := by
      rw [List.filterMap_map]
      exact (List.filterMap_congr fun step member => byId_of_mem unique member).trans
        List.filterMap_some
    have permuted := perm.filterMap (byId steps)
    rwa [listed] at permuted
  · intro front step back shape dependency named
    have order : (drain steps).ordered =
        front.map (·.id) ++ step.id :: back.map (·.id) := by
      rw [← ids, shape, List.map_append, List.map_cons]
    have isStep : step ∈ (drain steps).ordered.filterMap (byId steps) := by
      rw [shape]
      exact List.mem_append_right _ List.mem_cons_self
    rcases List.mem_filterMap.mp isStep with ⟨id, _, found⟩
    have member : step ∈ steps := List.mem_reverse.mp (List.mem_of_find?_eq_some found)
    apply resolving.after _ _ _ order
    rwa [dependencies_of_mem unique member]

/-- A step that is not taken when the queue is empty names another such step. -/
theorem exists_open_dependency (unique : (steps.map (·.id)).Nodup)
    (known : DependenciesKnown steps) {id : String} (listed : id ∈ steps.map (·.id))
    (missing : id ∉ (drain steps).ordered) :
    ∃ dependency ∈ steps.map (·.id), dependency ∉ (drain steps).ordered ∧
      DependsOn steps id dependency := by
  have resolving := Resolving.drain unique
  have unready : id ∉ (drain steps).ordered ++ (drain steps).ready := by
    rwa [ready_drain unique, List.append_nil]
  have waits : (drain steps).incoming id ≠ 0 := fun free =>
    unready ((resolving.free_iff id listed).mpr free)
  rw [resolving.open_eq id listed, List.count_nil] at waits
  have counted : 0 < (dependencies steps id).countP (· ∉ (drain steps).ordered) := by
    omega
  rcases List.countP_pos_iff.mp counted with ⟨dependency, named, untaken⟩
  rcases List.mem_map.mp listed with ⟨step, member, rfl⟩
  rw [dependencies_of_mem unique member] at named
  exact ⟨dependency, known step member dependency named, of_decide_eq_true untaken,
    step, member, rfl, named⟩

/-- Without a cycle, the loop takes every step. -/
theorem complete_of_acyclic (unique : (steps.map (·.id)).Nodup)
    (known : DependenciesKnown steps) (acyclic : AcyclicDependencies steps) :
    (drain steps).ordered.length = steps.length := by
  have resolving := Resolving.drain unique
  have nodup := (List.nodup_append.mp resolving.nodup).1
  have none : (steps.map (·.id)).filter (· ∉ (drain steps).ordered) = [] := by
    by_contra some
    rcases exists_sink acyclic some with ⟨id, isOpen, last⟩
    rw [List.mem_filter, decide_eq_true_eq] at isOpen
    rcases exists_open_dependency unique known isOpen.1 isOpen.2 with
      ⟨dependency, listed, untaken, depends⟩
    refine last dependency (List.mem_filter.mpr ⟨listed, ?_⟩) depends
    exact decide_eq_true untaken
  have taken : steps.map (·.id) ⊆ (drain steps).ordered := by
    intro id listed
    by_contra missing
    exact List.filter_eq_nil_iff.mp none id listed (decide_eq_true missing)
  have inside : (drain steps).ordered ⊆ steps.map (·.id) := fun id member =>
    resolving.known id (List.mem_append_left _ member)
  have most := (List.subperm_of_subset nodup inside).length_le
  have least := (List.subperm_of_subset unique taken).length_le
  rw [List.length_map] at most least
  exact Nat.le_antisymm most least

/-! ## Both directions -/

theorem Sorts.dependenciesKnown (sorts : Sorts steps sorted) : DependenciesKnown steps := by
  intro step member dependency named
  rcases List.append_of_mem (sorts.perm.mem_iff.mpr member) with ⟨front, back, shape⟩
  rcases List.mem_map.mp (sorts.behind front step back shape dependency named) with
    ⟨other, before, rfl⟩
  have listed : other ∈ sorted := shape ▸ List.mem_append_left _ before
  exact List.mem_map_of_mem (sorts.perm.mem_iff.mp listed)

/-- The sorted steps are created one behind the other. -/
theorem Sorts.creationOrder (unique : (steps.map (·.id)).Nodup)
    (sorts : Sorts steps sorted) :
    CreationOrder (sorted.map (·.id)) (DependsOn steps) := by
  rintro _ dependency ⟨step, member, rfl, named⟩
  rcases List.append_of_mem (sorts.perm.mem_iff.mpr member) with ⟨front, back, shape⟩
  have before := sorts.behind front step back shape dependency named
  have distinct : (sorted.map (·.id)).Nodup := (sorts.perm.map (·.id)).nodup_iff.mpr unique
  rw [shape, List.map_append, List.map_cons] at distinct ⊢
  have absent : step.id ∉ front.map (·.id) := fun inside =>
    (List.nodup_append.mp distinct).2.2 step.id inside step.id List.mem_cons_self rfl
  rw [List.idxOf_append_of_mem before, List.idxOf_append_of_notMem absent,
    List.idxOf_cons_self, Nat.add_zero]
  exact List.idxOf_lt_length_of_mem before

theorem order_of_acyclic (unique : (steps.map (·.id)).Nodup)
    (known : DependenciesKnown steps) (acyclic : AcyclicDependencies steps) :
    ∃ sorted, order steps = .ok sorted ∧ Sorts steps sorted := by
  have complete := complete_of_acyclic unique known acyclic
  refine ⟨_, order_eq_ok.mpr ⟨?_, complete, rfl⟩, sorts_of_complete unique complete⟩
  intro step member dependency named
  refine ⟨?_, known step member dependency named⟩
  rintro rfl
  exact acyclic step.id (.single ⟨step, member, rfl, named⟩)

theorem acyclic_of_order (unique : (steps.map (·.id)).Nodup)
    (ordered : order steps = .ok sorted) :
    DependenciesKnown steps ∧ AcyclicDependencies steps := by
  rcases order_eq_ok.mp ordered with ⟨_, complete, _⟩
  have sorts := sorts_of_complete unique complete
  exact ⟨sorts.dependenciesKnown, (sorts.creationOrder unique).acyclic⟩

/-- Steps that keep their ids and dependencies can be ordered as before. -/
theorem exists_order_map {change : PlanStep → PlanStep}
    (sameId : ∀ step, (change step).id = step.id)
    (sameDependencies : ∀ step, (change step).dependencies = step.dependencies)
    (unique : (steps.map (·.id)).Nodup) (ordered : order steps = .ok sorted) :
    ∃ sorted, order (steps.map change) = .ok sorted := by
  have ids : (steps.map change).map (·.id) = steps.map (·.id) := by
    rw [List.map_map]
    exact List.map_congr_left fun step _ => sameId step
  have ⟨known, acyclic⟩ := acyclic_of_order unique ordered
  have depends : DependsOn (steps.map change) = DependsOn steps := by
    funext id dependency
    simp [DependsOn, sameId, sameDependencies]
  have knownChanged : DependenciesKnown (steps.map change) := by
    unfold DependenciesKnown
    rw [ids, List.forall_mem_map]
    intro step member dependency named
    rw [sameDependencies] at named
    exact known step member dependency named
  have acyclicChanged : AcyclicDependencies (steps.map change) := by
    unfold AcyclicDependencies
    rwa [depends]
  rcases order_of_acyclic (ids ▸ unique) knownChanged acyclicChanged with ⟨sorted, ordered, _⟩
  exact ⟨sorted, ordered⟩

/-- Of steps with distinct ids the loop ends with an empty queue. The steps come back sorted
if and only if every dependency is known and no step depends on itself through others;
otherwise the plan is refused. -/
theorem order_correct (unique : (steps.map (·.id)).Nodup) :
    (drain steps).ready = [] ∧
      ((∃ sorted, order steps = .ok sorted ∧ Sorts steps sorted) ↔
        DependenciesKnown steps ∧ AcyclicDependencies steps) ∧
      (¬ (DependenciesKnown steps ∧ AcyclicDependencies steps) →
        ∃ message, order steps = .error (.planValidation message)) := by
  have sortedOnly : ∀ sorted, order steps = .ok sorted →
      DependenciesKnown steps ∧ AcyclicDependencies steps :=
    fun sorted ordered => acyclic_of_order unique ordered
  refine ⟨ready_drain unique, ⟨?_, ?_⟩, ?_⟩
  · rintro ⟨sorted, ordered, _⟩
    exact sortedOnly sorted ordered
  · rintro ⟨known, acyclic⟩
    exact order_of_acyclic unique known acyclic
  · intro refused
    cases ordered : order steps with
    | ok sorted => exact absurd (sortedOnly sorted ordered) refused
    | error error =>
        rcases order_eq_error ordered with ⟨message, rfl⟩
        exact ⟨message, rfl⟩

/-- A step that names another one twice, and is listed before it. -/
def fetchAndBuild : List PlanStep :=
  [{ id := "build", createdAt := "", updatedAt := "", dependencies := ["fetch", "fetch"] },
    { id := "fetch", createdAt := "", updatedAt := "" }]

theorem order_correct_of_repeated : (drain fetchAndBuild).ready = [] ∧
    ((∃ sorted, order fetchAndBuild = .ok sorted ∧ Sorts fetchAndBuild sorted) ↔
      DependenciesKnown fetchAndBuild ∧ AcyclicDependencies fetchAndBuild) ∧
    (¬ (DependenciesKnown fetchAndBuild ∧ AcyclicDependencies fetchAndBuild) →
      ∃ message, order fetchAndBuild = .error (.planValidation message)) :=
  order_correct (by decide)

end DependencyResolver

end Raphael.Agent.Planner
