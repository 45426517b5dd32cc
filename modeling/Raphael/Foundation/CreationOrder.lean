import Mathlib.Order.WellFoundedSet

/-! # Creation order

Nodes are created one behind the other, and a node leads only to nodes that were there
when it was created. Such a relation has no cycle, and creating a node keeps it so. Of
finitely many nodes without a cycle, one leads to none of them. -/

namespace Raphael.Foundation

variable {Node : Type u}

section Order

variable [DecidableEq Node]

/-- Every edge leads to a node of the list, and to one before its source. -/
def CreationOrder (nodes : List Node) (edge : Node → Node → Prop) : Prop :=
  ∀ source target, edge source target → nodes.idxOf target < nodes.idxOf source

namespace CreationOrder

variable {nodes : List Node} {edge : Node → Node → Prop}

theorem target_mem (order : CreationOrder nodes edge) {source target : Node}
    (leads : edge source target) : target ∈ nodes := by
  apply List.idxOf_lt_length_iff.mp
  exact Nat.lt_of_lt_of_le (order source target leads) List.idxOf_le_length

/-- A path leads back in the order. -/
theorem path (order : CreationOrder nodes edge) {source target : Node}
    (path : Relation.TransGen edge source target) :
    nodes.idxOf target < nodes.idxOf source := by
  induction path with
  | single leads => exact order source _ leads
  | tail _ leads induction => exact Nat.lt_trans (order _ _ leads) induction

theorem acyclic (order : CreationOrder nodes edge) (node : Node) :
    ¬ Relation.TransGen edge node node :=
  fun cycle => Nat.lt_irrefl _ (order.path cycle)

theorem mono {fewer : Node → Node → Prop} (order : CreationOrder nodes edge)
    (subset : ∀ source target, fewer source target → edge source target) :
    CreationOrder nodes fewer :=
  fun source target leads => order source target (subset source target leads)

/-- A new node behind the others, with edges to some of them. -/
theorem append (order : CreationOrder nodes edge) {node : Node} (fresh : node ∉ nodes)
    {targets : List Node} (known : ∀ target ∈ targets, target ∈ nodes) :
    CreationOrder (nodes ++ [node])
      fun source target => edge source target ∨ source = node ∧ target ∈ targets := by
  intro source target leads
  rcases leads with old | ⟨rfl, present⟩
  · have before := order source target old
    rw [List.idxOf_append_of_mem (order.target_mem old)]
    by_cases member : source ∈ nodes
    · rwa [List.idxOf_append_of_mem member]
    · rw [List.idxOf_append_of_notMem member]
      rw [List.idxOf_eq_length member] at before
      omega
  · rw [List.idxOf_append_of_mem (known target present), List.idxOf_append_of_notMem fresh]
    have inside := List.idxOf_lt_length_iff.mpr (known target present)
    omega

end CreationOrder

end Order

/-- Among finitely many nodes of a relation without cycles, one leads to none of them. -/
theorem exists_sink {edge : Node → Node → Prop}
    (acyclic : ∀ node, ¬ Relation.TransGen edge node node) {nodes : List Node}
    (nonempty : nodes ≠ []) : ∃ node ∈ nodes, ∀ target ∈ nodes, ¬ edge node target := by
  let below := Function.swap (Relation.TransGen edge)
  have strict : IsStrictOrder Node below :=
    { irrefl := acyclic
      trans := fun _ _ _ first second => second.trans first }
  have founded := nodes.finite_toSet.wellFoundedOn (r := below)
  rcases List.exists_mem_of_ne_nil nodes nonempty with ⟨start, member⟩
  rcases founded.has_min Set.univ ⟨⟨start, member⟩, trivial⟩ with ⟨⟨node, inside⟩, _, least⟩
  exact ⟨node, inside, fun target present leads =>
    least ⟨target, present⟩ trivial (.single leads)⟩

end Raphael.Foundation
