import Raphael.Foundation.CreationOrder
import Raphael.Foundation.FallibleFold
import Raphael.Scheduler.Scheduler

/-! # Acyclic submission

The stored jobs depend on jobs that were stored before them. The search for a cycle then
only leads back in the order of creation, and never to a node it is visiting. -/

namespace Raphael.Scheduler

open Core Foundation Persistence

/-! ## The search -/

/-- One node leads to another in the graph. -/
def Leads (graph : List (String × List String)) (source target : String) : Prop :=
  ∃ dependencies, graph.lookup source = some dependencies ∧ target ∈ dependencies

/-- Where every edge leads back in an order, the search meets no node on its path, and
the place of a node in the order is enough depth. -/
theorem visit_ok {graph : List (String × List String)} {nodes : List String}
    (order : CreationOrder nodes (Leads graph)) (depth : Nat) (visiting : List String)
    (node : String) (visited : List String) (deep : nodes.idxOf node < depth)
    (later : ∀ other ∈ visiting, nodes.idxOf node < nodes.idxOf other) :
    ∃ final, visit graph depth visiting node visited = .ok final := by
  induction depth generalizing visiting node visited with
  | zero => omega
  | succ depth induction =>
      have off : ¬ visiting.contains node = true := by
        rw [List.contains_iff_mem]
        exact fun member => Nat.lt_irrefl _ (later node member)
      rw [visit, if_neg off]
      split
      · exact ⟨visited, rfl⟩
      · cases found : graph.lookup node with
        | none => exact ⟨visited, rfl⟩
        | some dependencies =>
            have loop := foldlM_ok
              (fun visited dependency => visit graph depth (node :: visiting) dependency visited)
              dependencies visited (fun rest _ => ∀ dependency ∈ rest, dependency ∈ dependencies)
              (by
                intro dependency rest visited within
                have before := order node dependency
                  ⟨dependencies, found, within dependency List.mem_cons_self⟩
                have searched := induction (node :: visiting) dependency visited (by omega)
                  (by
                    intro other member
                    rcases List.mem_cons.mp member with rfl | above
                    · exact before
                    · exact Nat.lt_trans before (later other above))
                rcases searched with ⟨next, visits⟩
                exact ⟨next, visits, fun other member => within other (.tail _ member)⟩)
              fun _ member => member
            rcases loop with ⟨final, reached, _⟩
            dsimp only
            rw [reached]
            exact ⟨node :: final, rfl⟩

/-- The search from every node in turn, as deep as the graph has nodes. -/
private theorem visitAll_ok {graph : List (String × List String)} {nodes : List String}
    (order : CreationOrder nodes (Leads graph)) (size : nodes.length = graph.length) :
    ∃ final, graph.foldlM (fun visited node => visit graph (graph.length + 1) [] node.1 visited)
      [] = .ok final := by
  have loop := foldlM_ok
    (fun visited (node : String × List String) =>
      visit graph (graph.length + 1) [] node.1 visited)
    graph [] (fun _ _ => True)
    (by
      intro node rest visited _
      have place : nodes.idxOf node.1 ≤ nodes.length := List.idxOf_le_length
      rcases visit_ok order (graph.length + 1) [] node.1 visited (by omega) (by simp) with
        ⟨final, visits⟩
      exact ⟨final, visits, trivial⟩)
    trivial
  rcases loop with ⟨final, reached, _⟩
  exact ⟨final, reached⟩

/-! ## The stored jobs -/

/-- A stored job depends on another id. -/
def DependsOn (table : SnapshotTable ScheduledJob) (jobId dependency : String) : Prop :=
  ∃ job, table.get jobId = some job ∧ dependency ∈ job.dependencies

/-- The ids in the order of creation. -/
def created (table : SnapshotTable ScheduledJob) : List String :=
  table.rows.map ScheduledJob.id

/-- Every job was stored behind its dependencies, and no key names two jobs. -/
structure Linked (table : SnapshotTable ScheduledJob) : Prop where
  order : CreationOrder (created table) (DependsOn table)
  keys : ∀ leftId rightId left right, table.get leftId = some left →
    table.get rightId = some right → left.idempotencyKey ≠ "" →
    left.idempotencyKey = right.idempotencyKey → leftId = rightId

variable {table next : SnapshotTable ScheduledJob} {job : ScheduledJob} {now : Int}

theorem mem_created {jobId : String} :
    jobId ∈ created table ↔ ∃ job, table.get jobId = some job :=
  SnapshotTable.mem_ids

theorem linked_empty (name : String) : Linked (.empty name) where
  order := by
    intro source target ⟨job, found, _⟩
    cases found
  keys := by simp

/-- The fields of a job that no call writes. -/
def SameSubmission (left right : ScheduledJob) : Prop :=
  left.dependencies = right.dependencies ∧ left.idempotencyKey = right.idempotencyKey ∧
    left.deadline = right.deadline

/-- A save of a stored job with the dependencies and the key it was submitted with. -/
theorem Linked.update {stored : ScheduledJob} (linked : Linked table)
    (found : table.get job.id = some stored)
    (same : SameSubmission stored job) : Linked (table.update now job).1 where
  order := by
    rw [created, show (table.update now job).1.rows.map ScheduledJob.id = created table from
      SnapshotTable.ids_update found]
    apply linked.order.mono
    intro source target ⟨held, present, member⟩
    rw [SnapshotTable.get_update] at present
    split at present
    · next isJob =>
        cases present
        exact ⟨stored, isJob ▸ found, same.1 ▸ member⟩
    · exact ⟨held, present, member⟩
  keys := by
    have before : ∀ id held, (table.update now job).1.get id = some held →
        ∃ earlier, table.get id = some earlier ∧
          earlier.idempotencyKey = held.idempotencyKey := by
      intro id held present
      rw [SnapshotTable.get_update] at present
      split at present
      · next isJob =>
          cases present
          exact ⟨stored, isJob ▸ found, same.2.1⟩
      · exact ⟨held, present, rfl⟩
    intro leftId rightId left right inLeft inRight keyed equal
    rcases before leftId left inLeft with ⟨earlierLeft, foundLeft, keyLeft⟩
    rcases before rightId right inRight with ⟨earlierRight, foundRight, keyRight⟩
    exact linked.keys leftId rightId earlierLeft earlierRight foundLeft foundRight
      (keyLeft ▸ keyed) (keyLeft.trans (equal.trans keyRight.symm))

/-- What `submit` has checked before it creates a job under a fresh id. -/
structure Admissible (table : SnapshotTable ScheduledJob) (job : ScheduledJob) : Prop where
  fresh : job.id ∉ created table
  known : ∀ dependency ∈ job.dependencies, dependency ∈ created table
  unkeyed : ∀ id found, table.get id = some found → job.idempotencyKey ≠ "" →
    found.idempotencyKey ≠ job.idempotencyKey

theorem Linked.create {made : ScheduledJob} (linked : Linked table)
    (admissible : Admissible table job) (written : table.create now job = .ok (next, made)) :
    Linked next where
  order := by
    rcases SnapshotTable.create_eq_ok written with ⟨rfl, rows, _⟩
    have ids : created next = created table ++ [job.id] := by
      rw [created, rows, List.map_append]
      rfl
    rw [ids]
    apply (linked.order.append admissible.fresh admissible.known).mono
    intro source target ⟨held, present, member⟩
    rw [SnapshotTable.get_create written] at present
    split at present
    · next isJob =>
        cases present
        exact .inr ⟨isJob, member⟩
    · exact .inl ⟨held, present, member⟩
  keys := by
    have rows := SnapshotTable.get_create written
    rcases SnapshotTable.create_eq_ok written with ⟨rfl, _, _⟩
    intro leftId rightId left right inLeft inRight keyed equal
    rw [rows] at inLeft inRight
    split at inLeft <;> split at inRight
    · next isLeft isRight => exact isLeft.trans isRight.symm
    · cases inLeft
      exact absurd equal.symm (admissible.unkeyed rightId right inRight keyed)
    · cases inRight
      exact absurd equal (admissible.unkeyed leftId left inLeft (equal ▸ keyed))
    · exact linked.keys leftId rightId left right inLeft inRight keyed equal

/-! ## The check -/

/-- The jobs as nodes with their dependencies. -/
private def nodesOf (jobs : List ScheduledJob) : List (String × List String) :=
  jobs.map fun job => (job.id, job.dependencies)

private theorem lookup_nodesOf {dependencies : List String} {source : String}
    (found : (nodesOf table.list).lookup source = some dependencies) :
    ∃ job, table.get source = some job ∧ job.dependencies = dependencies := by
  rcases List.lookup_eq_some_iff.mp found with ⟨before, after, split, _⟩
  have member : (source, dependencies) ∈ nodesOf table.list := by simp [split]
  rcases List.mem_map.mp member with ⟨job, present, same⟩
  cases same
  exact ⟨job, SnapshotTable.get_eq_some_iff.mpr ⟨SnapshotTable.mem_list.mp present, rfl⟩, rfl⟩

/-- The node of a new job stands behind the others. -/
private theorem insert_nodesOf (fresh : job.id ∉ created table) :
    Json.insert (nodesOf table.list) job.id job.dependencies =
      nodesOf table.list ++ [(job.id, job.dependencies)] := by
  have absent : (nodesOf table.list).any (·.1 == job.id) = false := by
    rw [List.any_eq_false]
    intro entry member
    rcases List.mem_map.mp member with ⟨held, present, rfl⟩
    rw [beq_iff_eq]
    intro same
    exact fresh (List.mem_map.mpr ⟨held, SnapshotTable.mem_list.mp present, same⟩)
  rw [Json.insert, absent]
  rfl

private theorem Linked.order_insert (linked : Linked table) (fresh : job.id ∉ created table)
    (known : ∀ dependency ∈ job.dependencies, dependency ∈ created table) :
    CreationOrder (created table ++ [job.id])
      (Leads (nodesOf table.list ++ [(job.id, job.dependencies)])) := by
  apply (linked.order.append fresh known).mono
  intro source target ⟨dependencies, found, member⟩
  rw [List.lookup_append] at found
  cases old : (nodesOf table.list).lookup source with
  | some listed =>
      rw [old] at found
      cases found
      rcases lookup_nodesOf old with ⟨held, present, same⟩
      exact .inl ⟨held, present, same ▸ member⟩
  | none =>
      rw [old, Option.none_or, List.lookup_cons] at found
      split at found
      · next same =>
          cases found
          exact .inr ⟨beq_iff_eq.mp same, member⟩
      · cases found

/-- In a linked table the check accepts every job under a fresh id whose dependencies
are stored. -/
theorem assertAcyclic_ok (linked : Linked table) (fresh : job.id ∉ created table)
    (known : ∀ dependency ∈ job.dependencies, dependency ∈ created table) :
    assertAcyclic table.list job = .ok () := by
  have size : (created table ++ [job.id]).length =
      (nodesOf table.list ++ [(job.id, job.dependencies)]).length := by
    simp [created, nodesOf, (SnapshotTable.list_perm table).length_eq]
  rcases visitAll_ok (linked.order_insert fresh known) size with ⟨final, reached⟩
  unfold assertAcyclic
  rw [show (table.list.map fun job => (job.id, job.dependencies)) = nodesOf table.list from rfl,
    insert_nodesOf fresh]
  dsimp only
  rw [reached]
  rfl

end Raphael.Scheduler
