import Raphael.Foundation.Nesting
import Raphael.Interface.WorkspaceEdits

/-! # Visible nodes

A collapsed group hides the nodes that are directly in it. What is deeper inside is hidden
when the groups in between are collapsed as well. -/

namespace Raphael.Interface

open Foundation Persistence

namespace Workspace

/-- The group of a node is a node itself. -/
def Encloses (workspace : Workspace) (outer inner : String) : Prop :=
  (workspace.nodes.get outer).isSome ∧ (workspace.nodes.get inner).isSome ∧
    (WorkspaceManager.layoutOf workspace inner).group = outer

def Collapsed (workspace : Workspace) (nodeId : String) : Prop :=
  ∃ node, workspace.nodes.get nodeId = some node ∧ node.state = .collapsed

/-- Some group around the node is collapsed: its group, the group of that, and so on. -/
def Covered (workspace : Workspace) (nodeId : String) : Prop :=
  MarkedAround workspace.Encloses workspace.Collapsed nodeId

open Classical in
/-- The nodes without a collapsed group around them, in their order. -/
noncomputable def uncovered (workspace : Workspace) : List WorkspaceNode :=
  (workspace.nodes.entries.filter fun entry => ¬ workspace.Covered entry.1).map Prod.snd

end Workspace

section

variable {workspace : Workspace} {nodeId : String}

theorem mem_collapsedIds :
    nodeId ∈ WorkspaceManager.collapsedIds workspace ↔ workspace.Collapsed nodeId := by
  unfold WorkspaceManager.collapsedIds Workspace.Collapsed
  simp only [List.mem_map, List.mem_filter, decide_eq_true_eq, Prod.exists,
    exists_and_right, exists_eq_right, Dict.get_eq_some_iff]

/-- The test of `visible_nodes` looks one level up. -/
theorem group_collapsed_iff (held : (workspace.nodes.get nodeId).isSome) :
    (WorkspaceManager.layoutOf workspace nodeId).group ∈
        WorkspaceManager.collapsedIds workspace ↔
      MarkedAbove workspace.Encloses workspace.Collapsed nodeId := by
  rw [mem_collapsedIds]
  constructor
  · intro collapsed
    rcases collapsed with ⟨node, found, isCollapsed⟩
    exact ⟨_, ⟨Option.isSome_of_eq_some found, held, rfl⟩, node, found, isCollapsed⟩
  · rintro ⟨outer, ⟨_, _, rfl⟩, collapsed⟩
    exact collapsed

theorem Workspace.Encloses.unique {outer other : String}
    (first : workspace.Encloses outer nodeId) (second : workspace.Encloses other nodeId) :
    outer = other := first.2.2.symm.trans second.2.2

theorem covered_held (covered : workspace.Covered nodeId) :
    (workspace.nodes.get nodeId).isSome := by
  rcases covered with ⟨outer, path, _⟩
  cases path with
  | single encloses => exact encloses.2.1
  | tail _ encloses => exact encloses.2.1

/-- What is not hidden by all the groups around it is visible. -/
theorem visible_eq_uncovered_iff : WorkspaceManager.visible workspace = workspace.uncovered ↔
    ∀ outer middle inner, workspace.Encloses outer middle → workspace.Encloses middle inner →
      workspace.Collapsed outer → workspace.Collapsed middle := by
  classical
  unfold WorkspaceManager.visible Workspace.uncovered
  rw [map_filter_eq_iff,
    ← @above_iff_around _ workspace.Encloses workspace.Collapsed Workspace.Encloses.unique]
  · constructor
    · intro agree nodeId
      refine ⟨MarkedAbove.around, fun around => ?_⟩
      have held : (workspace.nodes.get nodeId).isSome := covered_held around
      rcases Option.isSome_iff_exists.mp held with ⟨node, found⟩
      have same := agree (nodeId, node) (Dict.get_eq_some_iff.mp found)
      by_contra apart
      have seen : (WorkspaceManager.layoutOf workspace nodeId).group ∉
          WorkspaceManager.collapsedIds workspace :=
        fun collapsed => apart ((group_collapsed_iff held).mp collapsed)
      exact decide_eq_decide.mp same |>.mp seen around
    · intro agree entry member
      have held : (workspace.nodes.get entry.1).isSome :=
        Option.isSome_of_eq_some (Dict.get_of_mem member)
      apply decide_eq_decide.mpr
      rw [group_collapsed_iff held, agree]
      rfl
  · intro entry member uncovered
    have held : (workspace.nodes.get entry.1).isSome :=
      Option.isSome_of_eq_some (Dict.get_of_mem member)
    apply decide_eq_true
    intro collapsed
    exact of_decide_eq_true uncovered ((group_collapsed_iff held).mp collapsed).around

end

namespace WorkspaceManager

variable {table : SnapshotTable Workspace} {workspaceId : String} {workspace : Workspace}

private theorem visibleNodes_eq_iff (stored : table.get workspaceId = some workspace)
    (nodes : List WorkspaceNode) :
    visibleNodes workspaceId table = .ok nodes table ↔ visible workspace = nodes := by
  have answer : visibleNodes workspaceId table = .ok (visible workspace) table := by
    have found := @get_apply table workspaceId
    rw [stored] at found
    unfold visibleNodes
    rw [bind_apply, found]
    rfl
  rw [answer]
  constructor
  · intro same
    injection same
  · intro same
    rw [same]

/-- `visible_nodes` returns the nodes without a collapsed group around them exactly when every
node that encloses another one is collapsed as soon as its own group is. -/
theorem visibleNodes_iff (stored : table.get workspaceId = some workspace) :
    visibleNodes workspaceId table = .ok workspace.uncovered table ↔
      ∀ outer middle inner, workspace.Encloses outer middle →
        workspace.Encloses middle inner → workspace.Collapsed outer →
        workspace.Collapsed middle :=
  (visibleNodes_eq_iff stored _).trans visible_eq_uncovered_iff

def grouping : List WorkspaceStep :=
  [{ call := .create "", id := "w" },
    { call := .addNode "w" .container .null none (.finite 1) [], id := "outer" },
    { call := .addNode "w" .prose .null none (.finite 1) [], id := "leaf" },
    { call := .groupNodes "w" "outer" ["leaf"], id := "1" },
    { call := .setCollapsed "w" "outer" true, id := "2" }]

theorem visibleNodes_flat : ∃ table workspace,
    (step asciiRuntime).run (.empty "workspaces") grouping = some table ∧
      table.get "w" = some workspace ∧ workspace.Collapsed "outer" ∧
      visibleNodes "w" table = .ok workspace.uncovered table := by
  have ran : ((step asciiRuntime).run (.empty "workspaces") grouping).any (fun table =>
      (table.get "w").any fun workspace =>
        (workspace.nodes.get "outer").any (fun node => node.state == .collapsed) &&
        workspace.nodes.entries.all fun entry =>
          (workspace.nodes.get (layoutOf workspace
            (layoutOf workspace entry.1).group).group).isNone) = true := by
    decide +kernel
  simp only [Option.any_eq_true, Bool.and_eq_true, beq_iff_eq, List.all_eq_true] at ran
  rcases ran with ⟨table, reached, workspace, stored, ⟨node, found, collapsed⟩, flat⟩
  refine ⟨table, workspace, reached, stored, ⟨node, found, collapsed⟩,
    (visibleNodes_iff stored).mpr ?_⟩
  rintro outer middle inner ⟨heldOuter, _, rfl⟩ ⟨_, heldInner, rfl⟩
  rcases Option.isSome_iff_exists.mp heldInner with ⟨innerNode, foundInner⟩
  have outside := flat (inner, innerNode) (Dict.get_eq_some_iff.mp foundInner)
  rw [Option.isNone_iff_eq_none.mp outside] at heldOuter
  cases heldOuter

/-- Two nested groups, of which the outer one is collapsed. -/
def nesting : List WorkspaceStep :=
  [{ call := .create "", id := "w" },
    { call := .addNode "w" .container .null none (.finite 1) [], id := "outer" },
    { call := .addNode "w" .container .null none (.finite 1) [], id := "inner" },
    { call := .addNode "w" .prose .null none (.finite 1) [], id := "leaf" },
    { call := .groupNodes "w" "outer" ["inner"], id := "1" },
    { call := .groupNodes "w" "inner" ["leaf"], id := "2" },
    { call := .setCollapsed "w" "outer" true, id := "3" }]

/-- The leaf stays visible in a group that is hidden. -/
theorem visibleNodes_nested : ∃ table workspace,
    (step asciiRuntime).run (.empty "workspaces") nesting = some table ∧
      table.get "w" = some workspace ∧
      visibleNodes "w" table ≠ .ok workspace.uncovered table := by
  have ran : ((step asciiRuntime).run (.empty "workspaces") nesting).any (fun table =>
      (table.get "w").any fun workspace =>
        (workspace.nodes.get "leaf").isSome &&
        (workspace.nodes.get "inner").any (fun node => node.state == .live) &&
        (workspace.nodes.get "outer").any (fun node => node.state == .collapsed) &&
        (layoutOf workspace "leaf").group == "inner" &&
        (layoutOf workspace "inner").group == "outer") = true := by
    decide +kernel
  simp only [Option.any_eq_true, Bool.and_eq_true, beq_iff_eq] at ran
  rcases ran with ⟨table, reached, workspace, stored,
    ⟨⟨⟨leaf, inner, foundInner, live⟩, outer, foundOuter, collapsed⟩, inInner⟩, inOuter⟩
  refine ⟨table, workspace, reached, stored, fun exact => ?_⟩
  have same := (visibleNodes_eq_iff stored _).mp exact
  have heldInner := Option.isSome_of_eq_some foundInner
  have handed := visible_eq_uncovered_iff.mp same "outer" "inner" "leaf"
    ⟨Option.isSome_of_eq_some foundOuter, heldInner, inOuter⟩ ⟨heldInner, leaf, inInner⟩
    ⟨outer, foundOuter, collapsed⟩
  rcases handed with ⟨node, found, isCollapsed⟩
  rw [foundInner] at found
  cases found
  rw [live] at isCollapsed
  cases isCollapsed

end WorkspaceManager

end Raphael.Interface
