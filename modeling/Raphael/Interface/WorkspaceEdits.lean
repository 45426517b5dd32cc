import Raphael.Foundation.FallibleFold
import Raphael.Foundation.StepSystem
import Raphael.Interface.Workspace

/-! # What the calls make of a workspace

Every call leaves the table of workspaces as it is, adds an empty workspace, or writes back
one edit of a stored workspace. What the edits preserve holds in every run. -/

namespace Raphael.Interface

open Core Foundation Persistence

/-! ## Calls -/

inductive WorkspaceCall
  | create (projectScope : String)
  | addNode (workspaceId : String) (nodeType : NodeType) (props : Json)
      (dataRef : Option DataRef) (salience : PyFloat) (affordances : List String)
  | updateNode (workspaceId nodeId : String) (props : Json) (state : Option NodeState)
  | removeNode (workspaceId nodeId : String)
  | moveNode (workspaceId nodeId : String) (x y width height : Json)
  | groupNodes (workspaceId group : String) (nodeIds : List String)
  | setCollapsed (workspaceId nodeId : String) (collapsed : Bool)
  | focus (workspaceId nodeId : String)
  | applyUpdate (workspaceId : String) (update : Json)

namespace WorkspaceCall

/-- The props that a call gives; `null` where it gives none. -/
def props : WorkspaceCall → Json
  | .addNode _ _ props _ _ _ => props
  | .updateNode _ _ props _ => props
  | .applyUpdate _ update => (update.get? "props").getD .null
  | _ => .null

/-- The reference that a call hands over as it is. -/
def dataRef : WorkspaceCall → Option DataRef
  | .addNode _ _ _ dataRef _ _ => dataRef
  | _ => none

end WorkspaceCall

/-- A call with its reading of the clock and the id that it draws for what it makes. -/
structure WorkspaceStep where
  call : WorkspaceCall
  now : Int := 0
  id : String := ""

namespace WorkspaceManager

/-- The table behind a call, whether it returns or raises. -/
def perform (runtime : WorkspaceRuntime) (table : SnapshotTable Workspace)
    (step : WorkspaceStep) : SnapshotTable Workspace :=
  match step.call with
  | .create projectScope => leaves (create step.now step.id projectScope) table
  | .addNode workspaceId nodeType props dataRef salience affordances =>
      leaves (addNode runtime step.now step.id workspaceId nodeType props dataRef salience
        affordances) table
  | .updateNode workspaceId nodeId props state =>
      leaves (updateNode runtime step.now workspaceId nodeId props state) table
  | .removeNode workspaceId nodeId => leaves (removeNode step.now workspaceId nodeId) table
  | .moveNode workspaceId nodeId x y width height =>
      leaves (moveNode step.now workspaceId nodeId x y width height) table
  | .groupNodes workspaceId group nodeIds =>
      leaves (groupNodes step.now workspaceId group nodeIds) table
  | .setCollapsed workspaceId nodeId collapsed =>
      leaves (setCollapsed runtime step.now workspaceId nodeId collapsed) table
  | .focus workspaceId nodeId => leaves (focus step.now workspaceId nodeId) table
  | .applyUpdate workspaceId update =>
      leaves (applyUpdate runtime step.now step.id workspaceId update) table

/-- Neither a workspace nor a node has the id. -/
def unused (table : SnapshotTable Workspace) (id : String) : Bool :=
  table.rows.all fun workspace => workspace.id != id && (workspace.nodes.get id).isNone

/-- A drawn id is a new one. -/
def step (runtime : WorkspaceRuntime) : StepFunction (SnapshotTable Workspace) WorkspaceStep :=
  fun table step => if unused table step.id then some (perform runtime table step) else none

end WorkspaceManager

/-! ## Edits -/

/-- No number of a position is negative. -/
def NodeLayout.Proper (position : NodeLayout) : Prop :=
  0 ≤ position.x ∧ 0 ≤ position.y ∧ 0 ≤ position.width ∧ 0 ≤ position.height

theorem NodeLayout.Proper.default : NodeLayout.Proper {} := by
  unfold NodeLayout.Proper
  decide

/-- A layout in which some nodes have been moved or grouped. -/
structure Arranges (workspace : Workspace) (layout : Dict String NodeLayout) : Prop where
  kept : ∀ id, (workspace.layout.get id).isSome → (layout.get id).isSome
  placed : ∀ id position, layout.get id = some position →
    workspace.layout.get id = some position ∨
      (workspace.nodes.get id).isSome ∧
        ((WorkspaceManager.layoutOf workspace id).Proper → position.Proper)

/-- The references that reach a node: those of an update have been validated. -/
def Admits (runtime : WorkspaceRuntime) (call : WorkspaceCall) (ref : DataRef) : Prop :=
  call.dataRef = some ref ∨
    (validateProps runtime (.obj [("kind", .str ref.kind), ("ref_id", .str ref.refId)])).isOk

/-- What a step makes of a stored workspace. -/
inductive Edit (runtime : WorkspaceRuntime) (step : WorkspaceStep) (workspace : Workspace) :
    Workspace → Prop
  | add {node : WorkspaceNode} {given : Json} {value : PyFloat}
      (drawn : node.id = step.id)
      (validated : validateProps runtime given = .ok node.props)
      (ofCall : given = step.call.props ∨ given = .obj [])
      (admitted : ∀ ref, node.dataRef = some ref → Admits runtime step.call ref)
      (clamped : node.salience = value.clamp)
      (allowed : ∀ name ∈ node.affordances, name ∈ node.nodeType.allowedAffordances) :
      Edit runtime step workspace { workspace with
        nodes := workspace.nodes.set node.id node
        layout := workspace.layout.set node.id {} }
  | revise {node : WorkspaceNode} {nodeId : String} {props : List (String × Json)}
      (state : NodeState) (held : workspace.nodes.get nodeId = some node)
      (thawed : node.state ≠ .frozen)
      (validated : WorkspaceManager.revisedProps runtime node step.call.props = .ok props) :
      Edit runtime step workspace { workspace with
        nodes := workspace.nodes.set nodeId { node with
          props := props
          state := state
          updatedAt := step.now } }
  | remove {nodeId : String} (ofCall : step.call = .removeNode workspace.id nodeId) :
      Edit runtime step workspace { workspace with
        nodes := workspace.nodes.erase nodeId
        layout := workspace.layout.erase nodeId
        focusedNode := if workspace.focusedNode = nodeId then "" else workspace.focusedNode }
  | arrange {layout : Dict String NodeLayout} (arranged : Arranges workspace layout) :
      Edit runtime step workspace { workspace with layout := layout }
  | focus {nodeId : String} (held : (workspace.nodes.get nodeId).isSome) :
      Edit runtime step workspace { workspace with focusedNode := nodeId }

theorem Edit.id_eq {runtime : WorkspaceRuntime} {step : WorkspaceStep}
    {workspace edited : Workspace} (edit : Edit runtime step workspace edited) :
    edited.id = workspace.id := by
  cases edit <;> rfl

/-! ## Rules for the calls -/

section Rules

variable {α β : Type} {runtime : WorkspaceRuntime} {step : WorkspaceStep}
  {table : SnapshotTable Workspace}

/-- The effect leaves the table, or writes an edit of a stored workspace. -/
def Writes (runtime : WorkspaceRuntime) (step : WorkspaceStep)
    (table : SnapshotTable Workspace) (effect : WorkspaceM α) : Prop :=
  leaves effect table = table ∨
    ∃ workspace edited, table.get workspace.id = some workspace ∧
      Edit runtime step workspace edited ∧
      leaves effect table = (table.update step.now edited).1

theorem Writes.throw (error : Error) :
    Writes runtime step table (throw error : WorkspaceM α) := .inl rfl

theorem Writes.pure (value : α) : Writes runtime step table (pure value : WorkspaceM α) :=
  .inl rfl

theorem get_apply (workspaceId : String) :
    WorkspaceManager.get workspaceId table =
      match table.get workspaceId with
      | none => .error (WorkspaceManager.notFound "Workspace" workspaceId) table
      | some workspace => .ok workspace table := by
  unfold WorkspaceManager.get
  rw [bind_apply]
  change (match table.get workspaceId with
    | none => throw (WorkspaceManager.notFound "Workspace" workspaceId)
    | some workspace => Pure.pure workspace : WorkspaceM Workspace) table = _
  cases table.get workspaceId <;> rfl

theorem Writes.get {workspaceId : String} {rest : Workspace → WorkspaceM α}
    (later : ∀ workspace, workspace.id = workspaceId → table.get workspace.id = some workspace →
      Writes runtime step table (rest workspace)) :
    Writes runtime step table (WorkspaceManager.get workspaceId >>= rest) := by
  have answer := @get_apply table workspaceId
  cases found : table.get workspaceId with
  | none =>
      rw [found] at answer
      left
      unfold leaves
      rw [bind_apply, answer]
  | some workspace =>
      rw [found] at answer
      have sameId : workspace.id = workspaceId := SnapshotTable.id_of_get found
      have writes := later workspace sameId (sameId ▸ found)
      unfold Writes at writes ⊢
      rwa [leaves_bind_of_ok answer]

theorem Writes.ofExcept {given : Except Error α} {rest : α → WorkspaceM β}
    (later : ∀ value, given = .ok value → Writes runtime step table (rest value)) :
    Writes runtime step table (MonadExcept.ofExcept given >>= rest) := by
  cases given with
  | ok value => exact later value rfl
  | error error => exact .inl rfl

theorem Writes.update {workspace edited : Workspace} (answer : α)
    (stored : table.get workspace.id = some workspace)
    (edit : Edit runtime step workspace edited) :
    Writes runtime step table
      (WorkspaceRepository.update step.now edited >>= fun _ => Pure.pure answer) :=
  .inr ⟨workspace, edited, stored, edit, rfl⟩

/-! ## The calls -/

theorem need_eq_ok {workspace : Workspace} {nodeId : String} {node : WorkspaceNode}
    (needed : WorkspaceManager.need workspace nodeId = .ok node) :
    workspace.nodes.get nodeId = some node := by
  unfold WorkspaceManager.need at needed
  split at needed
  · cases needed
  · next held =>
      cases needed
      exact held

theorem validateAffordances_eq_ok {nodeType : NodeType} {affordances names : List String}
    (validated : validateAffordances nodeType affordances = .ok names) :
    ∀ name ∈ names, name ∈ nodeType.allowedAffordances := by
  unfold validateAffordances at validated
  dsimp only at validated
  split at validated
  · cases validated
  · next none_unknown =>
      cases validated
      intro name member
      by_contra foreign
      have unknown : name ∈ affordances.filter fun name => name ∉ nodeType.allowedAffordances :=
        List.mem_filter.mpr ⟨member, decide_eq_true foreign⟩
      rw [not_not.mp none_unknown] at unknown
      cases unknown

theorem writes_addNode (workspaceId : String) (nodeType : NodeType) (props : Json)
    (dataRef : Option DataRef) (salience : PyFloat) (affordances : List String)
    (ofCall : props = step.call.props ∨ props = .obj [])
    (admitted : ∀ ref, dataRef = some ref → Admits runtime step.call ref) :
    Writes runtime step table (WorkspaceManager.addNode runtime step.now step.id workspaceId
      nodeType props dataRef salience affordances) := by
  unfold WorkspaceManager.addNode
  apply Writes.get
  intro workspace _ stored
  apply Writes.ofExcept
  intro fields validated
  apply Writes.ofExcept
  intro names allowed
  apply Writes.update _ stored
  exact .add rfl validated (by split <;> simp [ofCall]) admitted rfl
    (validateAffordances_eq_ok allowed)

theorem writes_updateNode (workspaceId nodeId : String) (props : Json)
    (state : Option NodeState) (ofCall : props = step.call.props) :
    Writes runtime step table
      (WorkspaceManager.updateNode runtime step.now workspaceId nodeId props state) := by
  unfold WorkspaceManager.updateNode
  apply Writes.get
  intro workspace _ stored
  apply Writes.ofExcept
  intro node needed
  by_cases frozen : node.state = .frozen
  · rw [if_pos frozen]
    exact .inl rfl
  · rw [if_neg frozen]
    change Writes runtime step table (MonadExcept.ofExcept _ >>= _)
    apply Writes.ofExcept
    intro fields validated
    apply Writes.update _ stored
    exact .revise _ (need_eq_ok needed) frozen (ofCall ▸ validated)

theorem writes_removeNode (workspaceId nodeId : String)
    (ofCall : step.call = .removeNode workspaceId nodeId) :
    Writes runtime step table (WorkspaceManager.removeNode step.now workspaceId nodeId) := by
  unfold WorkspaceManager.removeNode
  apply Writes.get
  intro workspace sameId stored
  by_cases missing : (workspace.nodes.get nodeId).isNone
  · rw [if_pos missing]
    exact .inl rfl
  · rw [if_neg missing]
    exact Writes.update _ stored (.remove (sameId ▸ ofCall))

theorem readLayout_eq_ok {label : String} {value : Json} {number : Int}
    (accepted : readLayout label value = .ok number) : 0 ≤ number := by
  unfold readLayout at accepted
  split at accepted
  · split at accepted
    · cases accepted
    · next whole =>
        cases accepted
        omega
  · cases accepted

/-- A new position for a node of the workspace. -/
theorem Arranges.set {workspace : Workspace} {nodeId : String} {position : NodeLayout}
    (held : (workspace.nodes.get nodeId).isSome)
    (proper : (WorkspaceManager.layoutOf workspace nodeId).Proper → position.Proper) :
    Arranges workspace (workspace.layout.set nodeId position) where
  kept := by
    intro id present
    rw [Dict.get_set]
    split
    · rfl
    · exact present
  placed := by
    intro id other found
    rw [Dict.get_set] at found
    split at found
    · next same =>
        subst same
        cases found
        exact .inr ⟨held, proper⟩
    · exact .inl found

theorem Arranges.layoutOf_proper {workspace : Workspace} {layout : Dict String NodeLayout}
    (arranged : Arranges workspace layout) {id : String}
    (proper : (WorkspaceManager.layoutOf workspace id).Proper) :
    (WorkspaceManager.layoutOf { workspace with layout := layout } id).Proper := by
  unfold WorkspaceManager.layoutOf
  cases found : layout.get id with
  | none => exact NodeLayout.Proper.default
  | some position =>
      rcases arranged.placed id position found with before | ⟨_, kept⟩
      · unfold WorkspaceManager.layoutOf at proper
        rwa [before] at proper
      · exact kept proper

theorem Arranges.trans {workspace : Workspace} {between layout : Dict String NodeLayout}
    (first : Arranges workspace between)
    (second : Arranges { workspace with layout := between } layout) :
    Arranges workspace layout where
  kept := fun id present => second.kept id (first.kept id present)
  placed := by
    intro id position found
    rcases second.placed id position found with before | ⟨held, kept⟩
    · exact first.placed id position before
    · exact .inr ⟨held, fun proper => kept (first.layoutOf_proper proper)⟩

/-- Grouping changes the layout only. -/
theorem regroup_eq_ok {group : String} {nodeIds : List String} {workspace grouped : Workspace}
    (regrouped : WorkspaceManager.regroup group nodeIds workspace = .ok grouped) :
    ∃ layout, Arranges workspace layout ∧ grouped = { workspace with layout := layout } := by
  induction nodeIds generalizing workspace with
  | nil =>
      cases regrouped
      exact ⟨grouped.layout, ⟨fun _ => id, fun _ _ => .inl⟩, rfl⟩
  | cons nodeId rest induction =>
      rcases except_bind_eq_ok.mp regrouped with ⟨node, needed, regrouped⟩
      have first : Arranges workspace (workspace.layout.set nodeId
          { WorkspaceManager.layoutOf workspace nodeId with group := group }) :=
        Arranges.set (Option.isSome_of_eq_some (need_eq_ok needed)) fun proper => proper
      rcases induction regrouped with ⟨layout, second, rfl⟩
      exact ⟨layout, first.trans second, rfl⟩

theorem writes_moveNode (workspaceId nodeId : String) (x y width height : Json) :
    Writes runtime step table
      (WorkspaceManager.moveNode step.now workspaceId nodeId x y width height) := by
  unfold WorkspaceManager.moveNode
  apply Writes.ofExcept
  intro x acceptedX
  apply Writes.ofExcept
  intro y acceptedY
  apply Writes.ofExcept
  intro width _
  apply Writes.ofExcept
  intro height _
  apply Writes.get
  intro workspace _ stored
  apply Writes.ofExcept
  intro node needed
  apply Writes.update _ stored
  apply Edit.arrange
  apply Arranges.set (Option.isSome_of_eq_some (need_eq_ok needed))
  rintro ⟨-, -, properWidth, properHeight⟩
  refine ⟨readLayout_eq_ok acceptedX, readLayout_eq_ok acceptedY, ?_, ?_⟩
  · dsimp only
    split <;> omega
  · dsimp only
    split <;> omega

theorem writes_groupNodes (workspaceId group : String) (nodeIds : List String) :
    Writes runtime step table
      (WorkspaceManager.groupNodes step.now workspaceId group nodeIds) := by
  unfold WorkspaceManager.groupNodes
  apply Writes.get
  intro workspace _ stored
  apply Writes.ofExcept
  intro grouped regrouped
  rcases regroup_eq_ok regrouped with ⟨layout, arranged, rfl⟩
  exact Writes.update _ stored (.arrange arranged)

theorem writes_setCollapsed (workspaceId nodeId : String) (collapsed : Bool)
    (ofCall : step.call.props = .null) :
    Writes runtime step table
      (WorkspaceManager.setCollapsed runtime step.now workspaceId nodeId collapsed) := by
  unfold WorkspaceManager.setCollapsed
  apply Writes.get
  intro workspace _ _
  apply Writes.ofExcept
  intro node _
  exact writes_updateNode _ _ _ _ ofCall.symm

theorem writes_focus (workspaceId nodeId : String) :
    Writes runtime step table (WorkspaceManager.focus step.now workspaceId nodeId) := by
  unfold WorkspaceManager.focus
  apply Writes.get
  intro workspace _ stored
  apply Writes.ofExcept
  intro node needed
  exact Writes.update _ stored (.focus (Option.isSome_of_eq_some (need_eq_ok needed)))

theorem readDataRef_eq_ok {value : Json} {ref : DataRef}
    (accepted : readDataRef runtime value = .ok (some ref)) :
    (validateProps runtime (.obj [("kind", .str ref.kind), ("ref_id", .str ref.refId)])).isOk := by
  unfold readDataRef at accepted
  split at accepted
  · cases accepted
  · rcases except_bind_eq_ok.mp accepted with ⟨fields, validated, accepted⟩
    cases accepted
    dsimp only at validated ⊢
    rw [validated]
    rfl
  · cases accepted

theorem writes_applyUpdate (workspaceId : String) (update : Json)
    (ofCall : step.call = .applyUpdate workspaceId update) :
    Writes runtime step table
      (WorkspaceManager.applyUpdate runtime step.now step.id workspaceId update) := by
  unfold WorkspaceManager.applyUpdate
  split
  · next fields =>
      dsimp only
      split
      · next nodeType _ =>
          apply Writes.ofExcept
          intro dataRef accepted
          apply Writes.ofExcept
          intro salience _
          split
          · exact .inl rfl
          · apply Writes.ofExcept
            intro names _
            apply writes_addNode
            · rw [ofCall]
              change (Json.lookup "props" fields).getD _ =
                (Json.lookup "props" fields).getD .null ∨ _
              cases Json.lookup "props" fields with
              | none => exact .inr rfl
              | some props => exact .inl rfl
            · rintro ref rfl
              exact .inr (readDataRef_eq_ok accepted)
      · exact .inl rfl
  · exact .inl rfl

end Rules

/-! ## Runs -/

namespace WorkspaceManager

variable {runtime : WorkspaceRuntime} {table next : SnapshotTable Workspace}

/-- What one step can do. -/
theorem perform_cases (runtime : WorkspaceRuntime) (table : SnapshotTable Workspace)
    (step : WorkspaceStep) :
    perform runtime table step = table ∨
      (∃ projectScope created, table.create step.now
          { id := step.id, updatedAt := step.now, projectScope := projectScope } =
        .ok (perform runtime table step, created)) ∨
      ∃ workspace edited, table.get workspace.id = some workspace ∧
        Edit runtime step workspace edited ∧
        perform runtime table step = (table.update step.now edited).1 := by
  unfold perform
  cases called : step.call with
  | create projectScope =>
      dsimp only [leaves, create, WorkspaceRepository.create]
      cases written : table.create step.now
          { id := step.id, updatedAt := step.now, projectScope := projectScope } with
      | ok answer => exact .inr (.inl ⟨projectScope, answer.2, written⟩)
      | error error => exact .inl rfl
  | addNode workspaceId nodeType props dataRef salience affordances =>
      have writes := @writes_addNode runtime step table workspaceId nodeType props dataRef
        salience affordances (by rw [called]; exact .inl rfl)
        (fun ref given => .inl (by rw [called]; exact given))
      exact writes.imp_right .inr
  | updateNode workspaceId nodeId props state =>
      have writes := @writes_updateNode runtime step table workspaceId nodeId props state
        (by rw [called]; rfl)
      exact writes.imp_right .inr
  | removeNode workspaceId nodeId =>
      exact (writes_removeNode workspaceId nodeId called).imp_right .inr
  | moveNode workspaceId nodeId x y width height =>
      exact (writes_moveNode workspaceId nodeId x y width height).imp_right .inr
  | groupNodes workspaceId group nodeIds =>
      exact (writes_groupNodes workspaceId group nodeIds).imp_right .inr
  | setCollapsed workspaceId nodeId collapsed =>
      have writes := @writes_setCollapsed runtime step table workspaceId nodeId collapsed
        (by rw [called]; rfl)
      exact writes.imp_right .inr
  | focus workspaceId nodeId => exact (writes_focus workspaceId nodeId).imp_right .inr
  | applyUpdate workspaceId update =>
      exact (writes_applyUpdate workspaceId update called).imp_right .inr

/-- A workspace behind an edit of one that has this id. -/
def Succeeds (runtime : WorkspaceRuntime) (step : WorkspaceStep)
    (workspace later : Workspace) : Prop :=
  later = workspace ∨
    ∃ edited, Edit runtime step workspace edited ∧ later = Entity.touch step.now edited

/-- A stored workspace stays stored, as it is or edited. -/
theorem get_perform {step : WorkspaceStep} {workspaceId : String} {workspace : Workspace}
    (stored : table.get workspaceId = some workspace) :
    ∃ later, (perform runtime table step).get workspaceId = some later ∧
      Succeeds runtime step workspace later := by
  rcases perform_cases runtime table step with
    same | ⟨projectScope, created, written⟩ | ⟨other, edited, held, edit, written⟩
  · exact ⟨workspace, by rw [same]; exact stored, .inl rfl⟩
  · refine ⟨workspace, ?_, .inl rfl⟩
    rw [SnapshotTable.get_create written, if_neg]
    · exact stored
    · rintro rfl
      rw [(SnapshotTable.create_eq_ok written).2.2] at stored
      cases stored
  · have sameId : Entity.id edited = other.id := edit.id_eq
    rw [written]
    by_cases here : workspaceId = other.id
    · subst here
      rw [held] at stored
      cases stored
      exact ⟨Entity.touch step.now edited, by rw [SnapshotTable.get_update, if_pos sameId.symm],
        .inr ⟨edited, edit, rfl⟩⟩
    · refine ⟨workspace, ?_, .inl rfl⟩
      rw [SnapshotTable.get_update, if_neg (sameId ▸ here)]
      exact stored

/-- A workspace behind a step is a new one, or one from before. -/
theorem get_perform_eq_some {step : WorkspaceStep} {workspaceId : String} {later : Workspace}
    (found : (perform runtime table step).get workspaceId = some later) :
    (∃ projectScope, later =
      { id := step.id, updatedAt := step.now, projectScope := projectScope }) ∨
      ∃ workspace, table.get workspaceId = some workspace ∧
        Succeeds runtime step workspace later := by
  cases stored : table.get workspaceId with
  | some workspace =>
      rcases @get_perform runtime table step workspaceId workspace stored with
        ⟨other, foundOther, succeeds⟩
      rw [found] at foundOther
      cases foundOther
      exact .inr ⟨workspace, rfl, succeeds⟩
  | none =>
      rcases perform_cases runtime table step with
        same | ⟨projectScope, created, written⟩ | ⟨other, edited, held, edit, written⟩
      · rw [same, stored] at found
        cases found
      · rw [SnapshotTable.get_create written, stored] at found
        split at found
        · cases found
          exact .inl ⟨projectScope, (SnapshotTable.create_eq_ok written).1⟩
        · cases found
      · have sameId : Entity.id edited = other.id := edit.id_eq
        rw [written, SnapshotTable.get_update, stored] at found
        split at found
        · next here =>
            rw [here, sameId, held] at stored
            cases stored
        · cases found

/-- What new workspaces have, and edits that are admitted keep. -/
structure Maintained (runtime : WorkspaceRuntime) (admitted : WorkspaceStep → Prop)
    (wanted : Workspace → Prop) : Prop where
  fresh : ∀ id now projectScope,
    wanted { id := id, updatedAt := now, projectScope := projectScope }
  touched : ∀ now workspace, wanted workspace → wanted (Entity.touch now workspace)
  edited : ∀ step workspace edited, admitted step → wanted workspace →
    Edit runtime step workspace edited → wanted edited

/-- Behind a run of admitted steps, every stored workspace has what is maintained. -/
theorem stored_of_run {admitted : WorkspaceStep → Prop} {wanted : Workspace → Prop}
    (maintained : Maintained runtime admitted wanted) {name : String}
    {steps : List WorkspaceStep} (all : ∀ step ∈ steps, admitted step)
    (reached : (step runtime).run (.empty name) steps = some table) {workspaceId : String}
    {workspace : Workspace} (stored : table.get workspaceId = some workspace) :
    wanted workspace := by
  have invariant : ∀ workspaceId workspace, table.get workspaceId = some workspace →
      wanted workspace := by
    refine @StepFunction.invariant_of_meets _ _ (step runtime)
      (fun _ step => admitted step ∧ True)
      (fun table => ∀ workspaceId workspace,
        table.get workspaceId = some workspace → wanted workspace)
      ?_ _ _ _ ?_ (StepFunction.meets_and all (StepFunction.meets_true _ _ _)) reached
    · intro before label after holds isAdmitted stepped workspaceId later found
      unfold WorkspaceManager.step at stepped
      split at stepped
      · cases stepped
        rcases get_perform_eq_some found with
          ⟨projectScope, rfl⟩ | ⟨workspace, held, rfl | ⟨edited, edit, rfl⟩⟩
        · exact maintained.fresh _ _ _
        · exact holds workspaceId _ held
        · have kept := holds workspaceId workspace held
          exact maintained.touched _ _
            (maintained.edited label workspace edited isAdmitted.1 kept edit)
      · cases stepped
    · intro workspaceId workspace found
      cases found
  exact invariant workspaceId workspace stored

end WorkspaceManager

end Raphael.Interface
