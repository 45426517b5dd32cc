import Raphael.Interface.WorkspaceEdits

/-! # The structure of a workspace

The linked maps of a workspace agree in every run, and a frozen node stays as it is until it
is removed. -/

namespace Raphael.Interface

open Core Foundation Persistence

/-! ## The invariant -/

/-- What the maps of a workspace say of one another. -/
structure Structured (workspace : Workspace) : Prop where
  linked : ∀ nodeId,
    (workspace.layout.get nodeId).isSome ↔ (workspace.nodes.get nodeId).isSome
  named : ∀ nodeId node, workspace.nodes.get nodeId = some node → node.id = nodeId
  focused : workspace.focusedNode = "" ∨ (workspace.nodes.get workspace.focusedNode).isSome
  allowed : ∀ nodeId node, workspace.nodes.get nodeId = some node →
    ∀ name ∈ node.affordances, name ∈ node.nodeType.allowedAffordances
  salient : ∀ nodeId node, workspace.nodes.get nodeId = some node →
    PyFloat.le (.finite 0) node.salience ∧ PyFloat.le node.salience (.finite 1)
  proper : ∀ nodeId position, workspace.layout.get nodeId = some position → position.Proper

/-- A clamped number is within the unit interval; a NaN is clamped to zero. -/
theorem PyFloat.clamp_within (value : PyFloat) :
    PyFloat.le (.finite 0) value.clamp ∧ PyFloat.le value.clamp (.finite 1) := by
  cases value with
  | nan => decide
  | infinity negative => cases negative <;> decide
  | finite value =>
      have ordered : (0 : Rat) < 1 := by decide
      by_cases positive : 0 < value
      · by_cases small : value < 1
        · simp [PyFloat.clamp, PyFloat.le, PyFloat.lt, positive, small]
        · simp [PyFloat.clamp, PyFloat.le, PyFloat.lt, positive, small, ordered]
      · simp [PyFloat.clamp, PyFloat.le, PyFloat.lt, positive, ordered]

private theorem isSome_erase {Value : Type} {dict : Dict String Value} {key other : String} :
    ((dict.erase key).get other).isSome ↔ (dict.get other).isSome ∧ other ≠ key := by
  simp only [Option.isSome_iff_exists, Dict.get_erase_eq_some, exists_and_right]

section

variable {workspace : Workspace}

theorem Structured.fresh (id : String) (now : Int) (projectScope : String) :
    Structured { id := id, updatedAt := now, projectScope := projectScope } where
  linked := fun _ => Iff.rfl
  named := fun _ _ held => by cases held
  focused := .inl rfl
  allowed := fun _ _ held => by cases held
  salient := fun _ _ held => by cases held
  proper := fun _ _ held => by cases held

theorem Structured.layoutOf_proper (structured : Structured workspace) (nodeId : String) :
    (WorkspaceManager.layoutOf workspace nodeId).Proper := by
  unfold WorkspaceManager.layoutOf
  cases found : workspace.layout.get nodeId with
  | none => exact NodeLayout.Proper.default
  | some position => exact structured.proper nodeId position found

theorem Structured.touch (structured : Structured workspace) (now : Int) :
    Structured (Entity.touch now workspace) :=
  ⟨structured.linked, structured.named, structured.focused, structured.allowed,
    structured.salient, structured.proper⟩

/-- A node that is written under its id has allowed affordances and a salience within
bounds; the layout follows. -/
private theorem Structured.write (structured : Structured workspace) {node : WorkspaceNode}
    {layout : Dict String NodeLayout}
    (allowed : ∀ name ∈ node.affordances, name ∈ node.nodeType.allowedAffordances)
    (salient : PyFloat.le (.finite 0) node.salience ∧ PyFloat.le node.salience (.finite 1))
    (linked : ∀ nodeId, (layout.get nodeId).isSome ↔
      nodeId = node.id ∨ (workspace.layout.get nodeId).isSome)
    (proper : ∀ nodeId position, layout.get nodeId = some position → position.Proper) :
    Structured { workspace with
      nodes := workspace.nodes.set node.id node
      layout := layout } := by
  have read (nodeId : String) (held : WorkspaceNode)
      (found : (workspace.nodes.set node.id node).get nodeId = some held) :
      nodeId = node.id ∧ held = node ∨ workspace.nodes.get nodeId = some held := by
    rw [Dict.get_set] at found
    split at found
    · next same => exact .inl ⟨same, (Option.some.inj found).symm⟩
    · exact .inr found
  have present (nodeId : String) : ((workspace.nodes.set node.id node).get nodeId).isSome ↔
      nodeId = node.id ∨ (workspace.nodes.get nodeId).isSome := by
    rw [Dict.get_set]
    split
    · next same => simp [same]
    · next differs => simp [differs]
  constructor
  · intro nodeId
    rw [linked, present, structured.linked]
  · intro nodeId held found
    rcases read nodeId held found with ⟨rfl, rfl⟩ | before
    · rfl
    · exact structured.named nodeId held before
  · rcases structured.focused with nothing | held
    · exact .inl nothing
    · exact .inr ((present _).mpr (.inr held))
  · intro nodeId held found
    rcases read nodeId held found with ⟨rfl, rfl⟩ | before
    · exact allowed
    · exact structured.allowed nodeId held before
  · intro nodeId held found
    rcases read nodeId held found with ⟨rfl, rfl⟩ | before
    · exact salient
    · exact structured.salient nodeId held before
  · exact proper

theorem Structured.edit {runtime : WorkspaceRuntime} {step : WorkspaceStep}
    {edited : Workspace} (structured : Structured workspace)
    (edit : Edit runtime step workspace edited) : Structured edited := by
  cases edit with
  | add drawn validated ofCall admitted clamped allowed =>
      apply structured.write allowed
      · rw [clamped]
        exact PyFloat.clamp_within _
      · intro nodeId
        rw [Dict.get_set]
        split
        · next same => simp [same]
        · next differs => simp [differs]
      · intro nodeId position found
        rw [Dict.get_set] at found
        split at found
        · cases found
          exact NodeLayout.Proper.default
        · exact structured.proper nodeId position found
  | @revise node nodeId props state held thawed validated =>
      obtain rfl := structured.named _ _ held
      apply @Structured.write workspace structured { node with
        props := props
        state := state
        updatedAt := step.now } workspace.layout
      · exact structured.allowed node.id node held
      · exact structured.salient node.id node held
      · intro nodeId
        constructor
        · exact .inr
        · rintro (rfl | present)
          · exact (structured.linked _).mpr (Option.isSome_of_eq_some held)
          · exact present
      · exact structured.proper
  | remove ofCall =>
      constructor
      · intro nodeId
        rw [isSome_erase, isSome_erase, structured.linked]
      · intro nodeId held found
        exact structured.named nodeId held (Dict.get_erase_eq_some.mp found).1
      · dsimp only
        split
        · exact .inl rfl
        · next differs =>
            exact structured.focused.imp_right fun held => isSome_erase.mpr ⟨held, differs⟩
      · intro nodeId held found
        exact structured.allowed nodeId held (Dict.get_erase_eq_some.mp found).1
      · intro nodeId held found
        exact structured.salient nodeId held (Dict.get_erase_eq_some.mp found).1
      · intro nodeId position found
        exact structured.proper nodeId position (Dict.get_erase_eq_some.mp found).1
  | arrange arranged =>
      refine ⟨fun nodeId => ⟨fun present => ?_, fun held => ?_⟩, structured.named,
        structured.focused, structured.allowed, structured.salient, ?_⟩
      · rcases Option.isSome_iff_exists.mp present with ⟨position, found⟩
        rcases arranged.placed nodeId position found with before | ⟨held, _⟩
        · exact (structured.linked nodeId).mp (Option.isSome_of_eq_some before)
        · exact held
      · exact arranged.kept nodeId ((structured.linked nodeId).mpr held)
      · intro nodeId position found
        rcases arranged.placed nodeId position found with before | ⟨_, kept⟩
        · exact structured.proper nodeId position before
        · exact kept (structured.layoutOf_proper nodeId)
  | focus held =>
      exact ⟨structured.linked, structured.named, .inr held, structured.allowed,
        structured.salient, structured.proper⟩

end

theorem Structured.maintained (runtime : WorkspaceRuntime) :
    WorkspaceManager.Maintained runtime (fun _ => True) Structured where
  fresh := Structured.fresh
  touched := fun now _ structured => structured.touch now
  edited := fun _ _ _ _ structured edit => structured.edit edit

/-! ## Frozen nodes -/

/-- The workspace has a frozen node with these props. -/
def HoldsFrozen (nodeId : String) (props : List (String × Json)) (workspace : Workspace) :
    Prop :=
  ∃ node, workspace.nodes.get nodeId = some node ∧ node.state = .frozen ∧ node.props = props

section

variable {runtime : WorkspaceRuntime} {step : WorkspaceStep} {workspace edited : Workspace}
  {nodeId : String} {props : List (String × Json)}

/-- An edit other than its removal leaves a frozen node. -/
theorem HoldsFrozen.edit (frozen : HoldsFrozen nodeId props workspace)
    (edit : Edit runtime step workspace edited) (isNew : nodeId ≠ step.id)
    (stays : step.call ≠ .removeNode workspace.id nodeId) :
    HoldsFrozen nodeId props edited := by
  rcases frozen with ⟨node, held, isFrozen, same⟩
  cases edit with
  | add drawn validated ofCall admitted clamped allowed =>
      refine ⟨node, ?_, isFrozen, same⟩
      rw [Dict.get_set, if_neg (drawn ▸ isNew)]
      exact held
  | @revise other otherId _ state heldOther thawed validated =>
      refine ⟨node, ?_, isFrozen, same⟩
      rw [Dict.get_set, if_neg]
      · exact held
      · rintro rfl
        rw [held] at heldOther
        cases heldOther
        exact thawed isFrozen
  | @remove otherId ofCall =>
      refine ⟨node, Dict.get_erase_eq_some.mpr ⟨held, ?_⟩, isFrozen, same⟩
      rintro rfl
      exact stays ofCall
  | arrange arranged => exact ⟨node, held, isFrozen, same⟩
  | focus heldOther => exact ⟨node, held, isFrozen, same⟩

end

namespace WorkspaceManager

variable {runtime : WorkspaceRuntime} {table final : SnapshotTable Workspace}

/-- A run without its removal leaves a frozen node. -/
theorem frozen_of_run {workspaceId nodeId : String} {props : List (String × Json)}
    {workspace : Workspace} {steps : List WorkspaceStep}
    (stored : table.get workspaceId = some workspace)
    (frozen : HoldsFrozen nodeId props workspace)
    (stays : ∀ step ∈ steps, step.call ≠ .removeNode workspaceId nodeId)
    (reached : (step runtime).run table steps = some final) :
    ∃ later, final.get workspaceId = some later ∧ HoldsFrozen nodeId props later := by
  induction steps generalizing table workspace with
  | nil =>
      cases reached
      exact ⟨workspace, stored, frozen⟩
  | cons label rest induction =>
      rcases StepFunction.run_cons_eq_some.mp reached with ⟨next, stepped, reached⟩
      unfold WorkspaceManager.step at stepped
      split at stepped
      · next isNew =>
          cases stepped
          have differs : nodeId ≠ label.id := by
            rintro rfl
            have row := SnapshotTable.get_eq_some_iff.mp stored
            have absent := List.all_eq_true.mp isNew workspace row.1
            rcases frozen with ⟨node, held, _⟩
            rw [held, Option.isNone_some, Bool.and_false] at absent
            cases absent
          rcases @get_perform runtime table label _ _ stored with ⟨later, storedLater, succeeds⟩
          apply induction storedLater ?_
            (fun other member => stays other (List.mem_cons_of_mem _ member)) reached
          rcases succeeds with rfl | ⟨edited, edit, rfl⟩
          · exact frozen
          · have remains := stays label List.mem_cons_self
            rw [← SnapshotTable.id_of_get stored] at remains
            have kept := frozen.edit edit differs remains
            exact kept
      · cases stepped

/-- In every run, the maps of a workspace agree, and a node that was frozen behind some of
the calls has kept its props and its state, unless a later one has removed it. -/
theorem workspace_structured {name : String} {first second : List WorkspaceStep}
    (begun : (step runtime).run (.empty name) first = some table)
    (continued : (step runtime).run table second = some final) {workspaceId : String}
    {workspace : Workspace} (stored : final.get workspaceId = some workspace) :
    Structured workspace ∧
      ∀ before nodeId node, table.get workspaceId = some before →
        before.nodes.get nodeId = some node → node.state = .frozen →
        (∀ step ∈ second, step.call ≠ .removeNode workspaceId nodeId) →
        ∃ kept, workspace.nodes.get nodeId = some kept ∧ kept.props = node.props ∧
          kept.state = node.state := by
  constructor
  · have reached : (step runtime).run (.empty name) (first ++ second) = some final :=
      StepFunction.run_append_eq_some.mpr ⟨table, begun, continued⟩
    exact stored_of_run (Structured.maintained runtime) (fun _ _ => trivial) reached stored
  · intro before nodeId node storedBefore held isFrozen stays
    rcases frozen_of_run storedBefore ⟨node, held, isFrozen, rfl⟩ stays continued with
      ⟨later, storedLater, kept, heldKept, stillFrozen, same⟩
    rw [stored] at storedLater
    cases storedLater
    exact ⟨kept, heldKept, same, stillFrozen.trans isFrozen.symm⟩

/-- A node is made and frozen. -/
def freezing : List WorkspaceStep :=
  [{ call := .create "", id := "w" },
    { call := .addNode "w" .prose (.obj [("title", .str "Report")]) none .nan ["expand"],
      id := "n" },
    { call := .updateNode "w" "n" .null (some .frozen), id := "1" }]

/-- Some of the calls raise. -/
def workingOn : List WorkspaceStep :=
  [{ call := .updateNode "w" "n" (.obj []) none, id := "2" },
    { call := .moveNode "w" "n" (.int 2) (.int (-3)) (.int 0) (.int 0), id := "3" },
    { call := .groupNodes "w" "g" ["n", "m"], id := "4" },
    { call := .focus "w" "n", id := "5" },
    { call := .removeNode "w" "m", id := "6" }]

theorem workspace_structured_frozen : ∃ table final before workspace,
    (step asciiRuntime).run (.empty "workspaces") freezing = some table ∧
      (step asciiRuntime).run table workingOn = some final ∧
      table.get "w" = some before ∧ final.get "w" = some workspace ∧ Structured workspace ∧
      ∃ node kept, before.nodes.get "n" = some node ∧ node.state = .frozen ∧
        workspace.nodes.get "n" = some kept ∧ kept.props = node.props ∧
        kept.state = node.state := by
  have ran : ((step asciiRuntime).run (.empty "workspaces") freezing).any (fun table =>
      (table.get "w").any (fun before =>
        (before.nodes.get "n").any fun node => node.state == .frozen) &&
      ((step asciiRuntime).run table workingOn).any fun final =>
        (final.get "w").isSome) = true := by
    decide +kernel
  simp only [Option.any_eq_true, Bool.and_eq_true, beq_iff_eq,
    Option.isSome_iff_exists] at ran
  rcases ran with ⟨table, begun, ⟨before, stored, node, held, isFrozen⟩, final, continued,
    workspace, storedLater⟩
  rcases workspace_structured begun continued storedLater with ⟨structured, kept⟩
  refine ⟨table, final, before, workspace, begun, continued, stored, storedLater, structured, node,
    ?_⟩
  rcases kept before "n" node stored held isFrozen (by simp [workingOn]) with
    ⟨later, heldLater, same, unchanged⟩
  exact ⟨later, held, isFrozen, heldLater, same, unchanged⟩

end WorkspaceManager

end Raphael.Interface
