import Raphael.Interface.WorkspaceEdits

/-! # Content of the nodes

What validation lets through, at every depth of the props, and what the nodes of a workspace
hold in every run. -/

namespace Raphael.Interface

open Core Foundation Persistence

/-! ## Keys and texts of a value -/

mutual
/-- The keys at every depth. -/
def keysWithin : Json → List String
  | .obj fields => keysOfFields fields
  | .arr items => keysOfItems items
  | .null => []
  | .bool _ => []
  | .int _ => []
  | .float _ => []
  | .str _ => []

def keysOfItems : List Json → List String
  | [] => []
  | item :: rest => keysWithin item ++ keysOfItems rest

def keysOfFields : List (String × Json) → List String
  | [] => []
  | (key, value) :: rest => key :: (keysWithin value ++ keysOfFields rest)
end

mutual
/-- The string values at every depth. -/
def textsWithin : Json → List String
  | .str text => [text]
  | .obj fields => textsOfFields fields
  | .arr items => textsOfItems items
  | .null => []
  | .bool _ => []
  | .int _ => []
  | .float _ => []

def textsOfItems : List Json → List String
  | [] => []
  | item :: rest => textsWithin item ++ textsOfItems rest

def textsOfFields : List (String × Json) → List String
  | [] => []
  | (_, value) :: rest => textsWithin value ++ textsOfFields rest
end

/-! ## What validation lets through -/

section Validation

variable {runtime : WorkspaceRuntime}

/-- A key that passes below the top. -/
def KeyPasses (runtime : WorkspaceRuntime) (key : String) : Prop :=
  runtime.lower key ∉ forbiddenKeys ∧ isHandlerKey runtime key = false

/-- A text that passes. -/
def TextPasses (runtime : WorkspaceRuntime) (text : String) : Prop :=
  ∀ snippet ∈ forbiddenSnippets, Text.contains snippet (runtime.lower text) = false

theorem scanKey_eq_ok {key : String} : scanKey runtime key = .ok () ↔ KeyPasses runtime key := by
  unfold scanKey KeyPasses
  split
  · next found =>
      constructor
      · intro accepted
        cases accepted
      · rintro ⟨allowed, plain⟩
        rcases found with forbidden | handler
        · exact absurd forbidden allowed
        · rw [plain] at handler
          cases handler
  · next passes =>
      rw [not_or, Bool.not_eq_true] at passes
      exact iff_of_true rfl passes

/-- The top refuses the keys that are refused below it. -/
theorem checkPropKey_eq_ok {key : String} :
    checkPropKey runtime key = .ok () ↔ KeyPasses runtime key := by
  unfold checkPropKey KeyPasses
  split
  · next forbidden => simp [forbidden]
  · next allowed =>
      split
      · next handler => simp [handler]
      · next plain => simp [allowed, plain]

theorem scanText_eq_ok {text : String} :
    scanText runtime text = .ok () ↔ TextPasses runtime text := by
  unfold scanText TextPasses
  split
  · next snippet found =>
      have held := List.find?_some found
      have member := List.mem_of_find?_eq_some found
      constructor
      · intro accepted
        cases accepted
      · intro passes
        rw [passes snippet member] at held
        cases held
  · next missing =>
      simp only [List.find?_eq_none, Bool.not_eq_true] at missing
      exact iff_of_true rfl missing

/-- All of these keys and texts pass. -/
def Passes (runtime : WorkspaceRuntime) (keys texts : List String) : Prop :=
  (∀ key ∈ keys, KeyPasses runtime key) ∧ ∀ text ∈ texts, TextPasses runtime text

private theorem passes_append {keys texts others more : List String} :
    Passes runtime (keys ++ others) (texts ++ more) ↔
      Passes runtime keys texts ∧ Passes runtime others more := by
  simp only [Passes, List.forall_mem_append]
  constructor
  · rintro ⟨⟨keysPass, othersPass⟩, textsPass, morePass⟩
    exact ⟨⟨keysPass, textsPass⟩, othersPass, morePass⟩
  · rintro ⟨⟨keysPass, textsPass⟩, othersPass, morePass⟩
    exact ⟨⟨keysPass, othersPass⟩, textsPass, morePass⟩

private theorem passes_cons {key : String} {keys texts : List String} :
    Passes runtime (key :: keys) texts ↔ KeyPasses runtime key ∧ Passes runtime keys texts := by
  simp only [Passes, List.forall_mem_cons, and_assoc]

/-- One check behind another. -/
private theorem checks_eq_ok {first second : Except Error Unit} :
    (first >>= fun _ => second) = .ok () ↔ first = .ok () ∧ second = .ok () := by
  rw [except_bind_eq_ok]
  constructor
  · rintro ⟨_, ran, later⟩
    exact ⟨ran, later⟩
  · rintro ⟨ran, later⟩
    exact ⟨(), ran, later⟩

/-! A value passes when all its keys and texts do. -/

mutual
theorem scanValue_eq_ok : (value : Json) → (scanValue runtime value = .ok () ↔
    Passes runtime (keysWithin value) (textsWithin value))
  | .null | .bool _ | .int _ | .float _ => by
      simp [scanValue, keysWithin, textsWithin, Passes]
  | .str text => by
      simp [scanValue, keysWithin, textsWithin, Passes, scanText_eq_ok]
  | .obj fields => by
      rw [scanValue, keysWithin, textsWithin]
      exact scanFields_eq_ok fields
  | .arr items => by
      rw [scanValue, keysWithin, textsWithin]
      exact scanItems_eq_ok items

theorem scanItems_eq_ok : (items : List Json) → (scanItems runtime items = .ok () ↔
    Passes runtime (keysOfItems items) (textsOfItems items))
  | [] => by simp [scanItems, keysOfItems, textsOfItems, Passes]
  | item :: rest => by
      rw [scanItems, keysOfItems, textsOfItems, passes_append, ← scanValue_eq_ok item,
        ← scanItems_eq_ok rest]
      exact checks_eq_ok

theorem scanFields_eq_ok : (fields : List (String × Json)) →
    (scanFields runtime fields = .ok () ↔
      Passes runtime (keysOfFields fields) (textsOfFields fields))
  | [] => by simp [scanFields, keysOfFields, textsOfFields, Passes]
  | (key, value) :: rest => by
      rw [scanFields, keysOfFields, textsOfFields, passes_cons, passes_append,
        ← scanKey_eq_ok, ← scanValue_eq_ok value, ← scanFields_eq_ok rest]
      exact checks_eq_ok.trans (and_congr_right fun _ => checks_eq_ok)
end

/-- The loop at the top does what the scan does below it. -/
theorem checkProps_eq_ok (fields : List (String × Json)) :
    checkProps runtime fields = .ok () ↔
      Passes runtime (keysOfFields fields) (textsOfFields fields) := by
  induction fields with
  | nil => simp [checkProps, keysOfFields, textsOfFields, Passes]
  | cons field rest induction =>
      rw [checkProps, keysOfFields, textsOfFields, passes_cons, passes_append,
        ← checkPropKey_eq_ok, ← scanValue_eq_ok field.2, ← induction]
      exact checks_eq_ok.trans (and_congr_right fun _ => checks_eq_ok)

/-- Props that have been accepted are what was given, and pass. -/
theorem validateProps_eq_ok {given : Json} {fields : List (String × Json)}
    (validated : validateProps runtime given = .ok fields) :
    given = .obj fields ∧ Passes runtime (keysWithin given) (textsWithin given) := by
  unfold validateProps at validated
  split at validated
  · next held =>
      dsimp only at validated
      split at validated
      · rcases except_bind_eq_ok.mp validated with ⟨_, refused, _⟩
        cases refused
      · rcases except_bind_eq_ok.mp validated with ⟨_, checked, validated⟩
        cases validated
        rw [keysWithin, textsWithin]
        exact ⟨rfl, (checkProps_eq_ok _).mp checked⟩
  · cases validated

/-! ## Inert nodes -/

/-- At every depth no key is a forbidden one or that of a handler, and no text has a
snippet, in any letter case. -/
structure Inert (runtime : WorkspaceRuntime) (value : Json) : Prop where
  keys : ∀ key ∈ keysWithin value,
    (∀ forbidden ∈ forbiddenKeys, runtime.lower key ≠ runtime.lower forbidden) ∧
      isHandlerKey runtime key = false
  texts : ∀ text ∈ textsWithin value, ∀ snippet ∈ forbiddenSnippets,
    Text.contains (runtime.lower snippet) (runtime.lower text) = false

/-- The texts of a reference. -/
def DataRef.content (ref : DataRef) : Json := .arr [.str ref.kind, .str ref.refId]

/-- What a node holds is inert. -/
def WorkspaceNode.IsInert (runtime : WorkspaceRuntime) (node : WorkspaceNode) : Prop :=
  Inert runtime (.obj node.props) ∧
    ∀ ref, node.dataRef = some ref → Inert runtime ref.content

/-- A call whose props have no key that is this one in some letter case: it is compared with
lower case, and never found. A reference that is handed over is not looked at, either. -/
structure Careful (runtime : WorkspaceRuntime) (call : WorkspaceCall) : Prop where
  keys : ∀ key ∈ keysWithin call.props,
    runtime.lower key ≠ runtime.lower "dangerouslySetInnerHTML"
  ref : ∀ ref, call.dataRef = some ref →
    TextPasses runtime ref.kind ∧ TextPasses runtime ref.refId

private theorem lower_of_ascii {text : String}
    (plain : (text.toList.all fun character => decide (character.toNat < 128)) &&
      String.ofList (text.toList.map Char.toLower) == text) :
    runtime.lower text = text := by
  rw [Bool.and_eq_true, List.all_eq_true, beq_iff_eq] at plain
  rw [runtime.lower_ascii text fun character member =>
    of_decide_eq_true (plain.1 character member)]
  exact plain.2

/-- The snippets are in lower case. -/
theorem lower_snippet {snippet : String} (member : snippet ∈ forbiddenSnippets) :
    runtime.lower snippet = snippet := by
  have plain : forbiddenSnippets.all fun snippet =>
      (snippet.toList.all fun character => decide (character.toNat < 128)) &&
        String.ofList (snippet.toList.map Char.toLower) == snippet := by
    decide +kernel
  exact lower_of_ascii (List.all_eq_true.mp plain snippet member)

/-- All the forbidden keys but one are in lower case. -/
theorem lower_forbidden {forbidden : String} (member : forbidden ∈ forbiddenKeys) :
    forbidden = "dangerouslySetInnerHTML" ∨ runtime.lower forbidden = forbidden := by
  have plain : forbiddenKeys.all fun forbidden =>
      forbidden == "dangerouslySetInnerHTML" ||
        ((forbidden.toList.all fun character => decide (character.toNat < 128)) &&
          String.ofList (forbidden.toList.map Char.toLower) == forbidden) := by
    decide +kernel
  have found := List.all_eq_true.mp plain forbidden member
  rw [Bool.or_eq_true, beq_iff_eq] at found
  exact found.imp_right lower_of_ascii

theorem TextPasses.inert {text : String} (passes : TextPasses runtime text) :
    ∀ snippet ∈ forbiddenSnippets,
      Text.contains (runtime.lower snippet) (runtime.lower text) = false := by
  intro snippet member
  rw [lower_snippet member]
  exact passes snippet member

/-- What passes is inert when it does not have the key in mixed case. -/
theorem Passes.inert {value : Json}
    (passes : Passes runtime (keysWithin value) (textsWithin value))
    (careful : ∀ key ∈ keysWithin value,
      runtime.lower key ≠ runtime.lower "dangerouslySetInnerHTML") : Inert runtime value where
  keys := by
    intro key member
    have ⟨allowed, plain⟩ := passes.1 key member
    refine ⟨fun forbidden isForbidden same => ?_, plain⟩
    rcases @lower_forbidden runtime forbidden isForbidden with rfl | lowered
    · exact careful key member same
    · rw [same, lowered] at allowed
      exact allowed isForbidden
  texts := fun text member => (passes.2 text member).inert

theorem inert_content {ref : DataRef}
    (passes : TextPasses runtime ref.kind ∧ TextPasses runtime ref.refId) :
    Inert runtime ref.content where
  keys := fun key member => by
    simp [DataRef.content, keysWithin, keysOfItems] at member
  texts := by
    intro text member
    simp only [DataRef.content, textsWithin, textsOfItems, List.append_nil, List.cons_append,
      List.nil_append, List.mem_cons, List.not_mem_nil, or_false] at member
    rcases member with rfl | rfl
    · exact passes.1.inert
    · exact passes.2.inert

/-- The reference of an admitted call. -/
theorem Admits.inert {call : WorkspaceCall} {ref : DataRef} (careful : Careful runtime call)
    (admits : Admits runtime call ref) : Inert runtime ref.content := by
  rcases admits with given | validated
  · exact inert_content (careful.ref ref given)
  · apply inert_content
    cases answer : validateProps runtime
        (.obj [("kind", .str ref.kind), ("ref_id", .str ref.refId)]) with
    | error error =>
        rw [answer] at validated
        cases validated
    | ok fields =>
        have passes := (validateProps_eq_ok answer).2.2
        exact ⟨passes ref.kind (by simp [textsWithin, textsOfFields]),
          passes ref.refId (by simp [textsWithin, textsOfFields])⟩

/-- Accepted props are inert, where the call is careful. -/
theorem inert_of_validated {given : Json} {fields : List (String × Json)}
    (validated : validateProps runtime given = .ok fields)
    (careful : ∀ key ∈ keysWithin given,
      runtime.lower key ≠ runtime.lower "dangerouslySetInnerHTML") :
    Inert runtime (.obj fields) := by
  rcases validateProps_eq_ok validated with ⟨rfl, passes⟩
  exact passes.inert careful

end Validation

/-! ## Runs -/

/-- Every node of the workspace is inert. -/
def InertNodes (runtime : WorkspaceRuntime) (workspace : Workspace) : Prop :=
  ∀ nodeId node, workspace.nodes.get nodeId = some node → node.IsInert runtime

theorem InertNodes.edit {runtime : WorkspaceRuntime} {step : WorkspaceStep}
    {workspace edited : Workspace} (careful : Careful runtime step.call)
    (inert : InertNodes runtime workspace) (edit : Edit runtime step workspace edited) :
    InertNodes runtime edited := by
  cases edit with
  | @add node given value drawn validated ofCall admitted clamped allowed =>
      intro nodeId held found
      rw [Dict.get_set] at found
      split at found
      · cases found
        refine ⟨inert_of_validated validated ?_,
          fun ref isRef => (admitted ref isRef).inert careful⟩
        rcases ofCall with rfl | rfl
        · exact careful.keys
        · intro key member
          cases member
      · exact inert nodeId held found
  | @revise node other props state held thawed validated =>
      intro nodeId revised found
      rw [Dict.get_set] at found
      split at found
      · cases found
        rcases inert other node held with ⟨propsInert, refInert⟩
        refine ⟨?_, refInert⟩
        unfold WorkspaceManager.revisedProps at validated
        split at validated
        · cases validated
          exact propsInert
        · exact inert_of_validated validated careful.keys
      · exact inert nodeId revised found
  | remove ofCall =>
      exact fun nodeId node found => inert nodeId node (Dict.get_erase_eq_some.mp found).1
  | arrange arranged => exact inert
  | focus held => exact inert

namespace WorkspaceManager

/-- Behind a run of careful calls, what the nodes hold is inert. -/
theorem content_inert {runtime : WorkspaceRuntime} {name : String}
    {steps : List WorkspaceStep} {table : SnapshotTable Workspace}
    (careful : ∀ step ∈ steps, Careful runtime step.call)
    (reached : (step runtime).run (.empty name) steps = some table)
    {workspaceId nodeId : String} {workspace : Workspace} {node : WorkspaceNode}
    (stored : table.get workspaceId = some workspace)
    (held : workspace.nodes.get nodeId = some node) : node.IsInert runtime := by
  have maintained : Maintained runtime (fun step => Careful runtime step.call)
      (InertNodes runtime) :=
    { fresh := fun _ _ _ _ _ found => by cases found
      touched := fun _ _ inert => inert
      edited := fun _ _ _ careful inert edit => inert.edit careful edit }
  exact stored_of_run maintained careful reached stored nodeId node held

def plainSteps : List WorkspaceStep :=
  [{ call := .create "", id := "w" },
    { call := .addNode "w" .prose (.obj [("Title", .str "Report")])
        (some { kind := "task", refId := "7" }) (.finite 1) [],
      id := "n" }]

theorem content_inert_plain : ∃ table workspace node,
    (step asciiRuntime).run (.empty "workspaces") plainSteps = some table ∧
      table.get "w" = some workspace ∧ workspace.nodes.get "n" = some node ∧
      node.IsInert asciiRuntime := by
  have ran : ((step asciiRuntime).run (.empty "workspaces") plainSteps).any (fun table =>
      (table.get "w").any fun workspace => (workspace.nodes.get "n").isSome) = true := by
    decide +kernel
  simp only [Option.any_eq_true, Option.isSome_iff_exists] at ran
  rcases ran with ⟨table, reached, workspace, stored, node, held⟩
  refine ⟨table, workspace, node, reached, stored, held, content_inert ?_ reached stored held⟩
  intro step member
  rcases List.mem_pair.mp member with rfl | rfl
  · exact ⟨fun key member => (List.not_mem_nil member).elim, fun ref given => by cases given⟩
  · constructor
    · simp only [WorkspaceCall.props, keysWithin, keysOfFields, List.append_nil,
        List.mem_singleton, forall_eq]
      decide +kernel
    · rintro ref ⟨⟩
      unfold TextPasses
      decide +kernel

def mixedSteps : List WorkspaceStep :=
  [{ call := .create "", id := "w" },
    { call := .addNode "w" .prose (.obj [("dangerouslySetInnerHTML", .str "x")]) none
        (.finite 1) [],
      id := "n" },
    { call := .addNode "w" .prose (.obj []) (some { kind := "<script>" }) (.finite 1) [],
      id := "m" }]

/-- The mixed-case key and a reference are accepted. -/
theorem content_not_inert : ∃ table workspace node other,
    (step asciiRuntime).run (.empty "workspaces") mixedSteps = some table ∧
      table.get "w" = some workspace ∧
      (workspace.nodes.get "n" = some node ∧ ¬ Inert asciiRuntime (.obj node.props)) ∧
      (workspace.nodes.get "m" = some other ∧ ¬ other.IsInert asciiRuntime) := by
  have ran : ((step asciiRuntime).run (.empty "workspaces") mixedSteps).any (fun table =>
      (table.get "w").any fun workspace =>
        (workspace.nodes.get "n").any (fun node =>
          (keysWithin (.obj node.props)).contains "dangerouslySetInnerHTML") &&
        (workspace.nodes.get "m").any fun node =>
          node.dataRef == some { kind := "<script>" }) = true := by
    decide +kernel
  simp only [Option.any_eq_true, Bool.and_eq_true, List.contains_iff_mem, beq_iff_eq] at ran
  rcases ran with ⟨table, reached, workspace, stored, ⟨node, held, key⟩, other, heldOther, ref⟩
  refine ⟨table, workspace, node, other, reached, stored, ⟨held, ?_⟩, heldOther, ?_⟩
  · intro inert
    exact (inert.keys _ key).1 "dangerouslySetInnerHTML" (by simp [forbiddenKeys]) rfl
  · intro inert
    have absent := (inert.2 _ ref).texts "<script>" (by
      simp [DataRef.content, textsWithin, textsOfItems]) "<script" (by simp [forbiddenSnippets])
    revert absent
    decide +kernel

end WorkspaceManager

end Raphael.Interface
