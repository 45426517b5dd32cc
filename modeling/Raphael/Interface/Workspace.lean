import Mathlib.Data.Rat.Defs
import Raphael.Core.Json
import Raphael.Foundation.Dict
import Raphael.Foundation.Effect
import Raphael.Persistence.SnapshotTable

/-! # The dynamic workspace

Typed nodes and their layout over data that the runtime owns. A workspace is stored as one
snapshot; every call reads it, edits it and writes it back. -/

namespace Raphael.Interface

open Core Foundation Persistence

/-! ## Floats -/

/-- A float. The zeros are one value here: nothing tells them apart. -/
inductive PyFloat
  | nan
  | infinity (negative : Bool)
  | finite (value : Rat)
  deriving DecidableEq, Repr

namespace PyFloat

/-- `left < right`: a NaN compares with nothing. -/
def lt : PyFloat → PyFloat → Bool
  | .nan, _ => false
  | _, .nan => false
  | .infinity left, .infinity right => left && !right
  | .infinity left, .finite _ => left
  | .finite _, .infinity right => !right
  | .finite left, .finite right => decide (left < right)

/-- `left <= right`. -/
def le (left right : PyFloat) : Bool :=
  left.lt right || (left == right && left != .nan)

/-- `min(1.0, max(0.0, value))`. -/
def clamp (value : PyFloat) : PyFloat :=
  let raised := if lt (.finite 0) value then value else .finite 0
  if lt raised (.finite 1) then raised else .finite 1

end PyFloat

/-- What texts and numbers answer. -/
structure WorkspaceRuntime where
  /-- `text.lower()`. -/
  lower : String → String
  /-- `text.isalpha()`. -/
  isAlpha : String → Bool
  /-- The float with this `repr`. -/
  floatValue : String → PyFloat
  /-- `float(text)`; none where it is refused. -/
  parseFloat : String → Option PyFloat
  /-- `float(value)` of an integer; none where it is too large. -/
  ofInt : Int → Option PyFloat
  lower_ascii : ∀ text, (∀ character ∈ text.toList, character.toNat < 128) →
    lower text = String.ofList (text.toList.map Char.toLower)

/-- ASCII text, and few floats. -/
def asciiRuntime : WorkspaceRuntime where
  lower := fun text => String.ofList (text.toList.map Char.toLower)
  isAlpha := fun text => text != "" && text.toList.all Char.isAlpha
  floatValue := fun text => if text = "0.5" then .finite (1 / 2) else .finite 0
  parseFloat := fun _ => none
  ofInt := fun value => some (.finite value)
  lower_ascii := fun _ _ => rfl

/-! ## The vocabulary -/

def maxPropBytes : Nat := 64000

def forbiddenKeys : List String :=
  ["__proto__", "constructor", "prototype", "dangerouslySetInnerHTML", "__html"]

def forbiddenSnippets : List String :=
  ["<script", "javascript:", "vbscript:", "data:text/html", "eval(", "new function",
    "settimeout(", "setinterval(", "expression(", "<img", "<svg", "<iframe", "<object",
    "<embed", "<link", "<meta", "<base", "<form", "<input", "<button", "<select",
    "<textarea", "<keygen", "<marquee", "onerror=", "onload="]

inductive NodeType
  | chart
  | prose
  | diagram
  | code
  | media
  | container
  | portal
  | table
  deriving DecidableEq, Repr

namespace NodeType

def value : NodeType → String
  | .chart => "chart"
  | .prose => "prose"
  | .diagram => "diagram"
  | .code => "code"
  | .media => "media"
  | .container => "container"
  | .portal => "portal"
  | .table => "table"

def all : List NodeType :=
  [.chart, .prose, .diagram, .code, .media, .container, .portal, .table]

/-- `NodeType(text)`. -/
def ofValue (text : String) : Option NodeType := all.find? (·.value == text)

/-- `_ALLOWED_AFFORDANCES`. -/
def allowedAffordances : NodeType → List String
  | .chart => ["zoom", "filter", "expand", "collapse", "refresh", "inspect"]
  | .prose => ["expand", "collapse", "refresh", "inspect"]
  | .diagram => ["zoom", "expand", "collapse", "refresh", "inspect"]
  | .code => ["expand", "collapse", "open", "inspect"]
  | .media => ["expand", "collapse", "open", "inspect"]
  | .container => ["expand", "collapse", "open", "inspect"]
  | .portal => ["open", "refresh", "inspect"]
  | .table => ["filter", "expand", "collapse", "refresh", "inspect"]

end NodeType

inductive NodeState
  | live
  | frozen
  | collapsed
  | dormant
  | ghost
  deriving DecidableEq, Repr

/-- Pointer to data of the runtime. -/
structure DataRef where
  kind : String := ""
  refId : String := ""
  deriving DecidableEq, Repr

structure WorkspaceNode where
  id : String
  updatedAt : Int
  nodeType : NodeType := .prose
  props : List (String × Json) := []
  dataRef : Option DataRef := none
  salience : PyFloat := .finite (1 / 2)
  state : NodeState := .live
  affordances : List String := []

/-- The position of a node in grid units, and the group it is in. -/
structure NodeLayout where
  x : Int := 0
  y : Int := 0
  width : Int := 4
  height : Int := 3
  group : String := ""
  deriving DecidableEq, Repr

structure Workspace where
  id : String
  updatedAt : Int
  projectScope : String := ""
  nodes : Dict String WorkspaceNode := .empty
  layout : Dict String NodeLayout := .empty
  focusedNode : String := ""

instance : Entity Workspace where
  id := Workspace.id
  updatedAt := Workspace.updatedAt
  touch := fun now workspace => { workspace with updatedAt := now }
  id_touch := fun _ _ => rfl

/-! ## Validation -/

section Validation

variable (runtime : WorkspaceRuntime)

/-- `_is_handler_key`: `on` and letters behind it. -/
def isHandlerKey (key : String) : Bool :=
  let lowered := runtime.lower key
  Text.startsWith "on" lowered && decide (2 < lowered.length) &&
    runtime.isAlpha (String.ofList (lowered.toList.drop 2))

/-- A text has no snippet of executable content. -/
def scanText (text : String) : Except Error Unit :=
  match forbiddenSnippets.find? fun snippet => Text.contains snippet (runtime.lower text) with
  | some snippet =>
      .error (.domainValidation ("executable content rejected (" ++ Text.repr snippet ++ ")"))
  | none => .ok ()

/-- The check of a key below the top. -/
def scanKey (key : String) : Except Error Unit :=
  if runtime.lower key ∈ forbiddenKeys ∨ isHandlerKey runtime key then
    .error (.domainValidation ("forbidden nested key " ++ Text.repr key))
  else .ok ()

/-! `_scan_value`. -/

mutual
def scanValue : Json → Except Error Unit
  | .str text => scanText runtime text
  | .obj fields => scanFields fields
  | .arr items => scanItems items
  | .null => .ok ()
  | .bool _ => .ok ()
  | .int _ => .ok ()
  | .float _ => .ok ()

def scanItems : List Json → Except Error Unit
  | [] => .ok ()
  | item :: rest => do
      scanValue item
      scanItems rest

def scanFields : List (String × Json) → Except Error Unit
  | [] => .ok ()
  | (key, value) :: rest => do
      scanKey runtime key
      scanValue value
      scanFields rest
end

/-- The check of a key at the top. -/
def checkPropKey (key : String) : Except Error Unit :=
  if runtime.lower key ∈ forbiddenKeys then
    .error (.domainValidation ("forbidden prop key " ++ Text.repr key))
  else if isHandlerKey runtime key then
    .error (.domainValidation ("event-handler prop " ++ Text.repr key ++ " forbidden"))
  else .ok ()

/-- The loop of `validate_props`. -/
def checkProps : List (String × Json) → Except Error Unit
  | [] => .ok ()
  | (key, value) :: rest => do
      checkPropKey runtime key
      scanValue runtime value
      checkProps rest

/-- The text of `json.dumps` is ASCII: it has as many bytes as characters. -/
def validateProps (props : Json) : Except Error (List (String × Json)) :=
  match props with
  | .obj fields => do
      let size := (Json.defaultText props).length
      if maxPropBytes < size then
        .error (.domainValidation ("node props " ++ toString size ++ " bytes exceed " ++
          toString maxPropBytes ++ " limit"))
      checkProps runtime fields
      return fields
  | _ => .error (.domainValidation "node props must be a mapping")

end Validation

def validateAffordances (nodeType : NodeType) (affordances : List String) :
    Except Error (List String) :=
  let unknown := affordances.filter fun name => name ∉ nodeType.allowedAffordances
  if unknown ≠ [] then
    .error (.domainValidation ("affordances " ++ Json.repr (.arr (unknown.map .str)) ++
      " not allowed for " ++ nodeType.value))
  else .ok affordances

/-- `float(value)`, as `apply_update` reads it: a number that is too large is not
caught. -/
def readSalience (runtime : WorkspaceRuntime) (value : Json) : Except Error PyFloat :=
  let refused := Except.error (.domainValidation "salience must be a number")
  match value with
  | .bool value => .ok (.finite (if value then 1 else 0))
  | .int value =>
      match runtime.ofInt value with
      | some value => .ok value
      | none => .error (.other "int too large to convert to float")
  | .float text => .ok (runtime.floatValue text)
  | .str text =>
      match runtime.parseFloat text with
      | some value => .ok value
      | none => refused
  | .null => refused
  | .arr _ => refused
  | .obj _ => refused

/-- The reference of an update. -/
def readDataRef (runtime : WorkspaceRuntime) (value : Json) :
    Except Error (Option DataRef) :=
  match value with
  | .null => .ok none
  | .obj fields => do
      let read (key : String) : String := ((Json.lookup key fields).getD (.str "")).text
      let ref : DataRef := { kind := read "kind", refId := read "ref_id" }
      let _ ← validateProps runtime (.obj [("kind", .str ref.kind), ("ref_id", .str ref.refId)])
      return some ref
  | _ => .error (.domainValidation "data_ref must be a mapping")

/-- The affordances of an update. -/
def readAffordances (value : Json) : Except Error (List String) :=
  match value with
  | .arr items =>
      match items.mapM fun item => match item with | .str text => some text | _ => none with
      | some names => .ok names
      | none => .error (.domainValidation "affordances must be strings")
  | _ => .error (.domainValidation "affordances must be a list")

/-- One of the numbers that `move_node` is given. -/
def readLayout (label : String) (value : Json) : Except Error Int :=
  match value with
  | .int value =>
      if value < 0 then .error (.domainValidation ("layout " ++ label ++ " must be >= 0"))
      else .ok value
  | _ => .error (.domainValidation ("layout " ++ label ++ " must be an integer"))

/-! ## The manager

A call reads the clock once here: what a workspace keeps is the reading of its last write.
`None` as an argument is `null`. -/

/-- Work on the table of workspaces. -/
abbrev WorkspaceM := EStateM Error (SnapshotTable Workspace)

namespace WorkspaceRepository

def create (now : Int) (workspace : Workspace) : WorkspaceM Workspace :=
  fun table =>
    match table.create now workspace with
    | .ok (next, created) => .ok created next
    | .error error => .error error table

def get (workspaceId : String) : WorkspaceM (Option Workspace) :=
  fun table => .ok (table.get workspaceId) table

def update (now : Int) (workspace : Workspace) : WorkspaceM Workspace :=
  fun table => .ok (table.update now workspace).2 (table.update now workspace).1

def list : WorkspaceM (List Workspace) :=
  fun table => .ok table.list table

end WorkspaceRepository

namespace WorkspaceManager

/-- `ResourceNotFoundError(kind, id)`. -/
def notFound (kind id : String) : Error :=
  .other (kind ++ " " ++ Text.repr id ++ " not found")

def create (now : Int) (id projectScope : String) : WorkspaceM Workspace :=
  WorkspaceRepository.create now { id := id, updatedAt := now, projectScope := projectScope }

def get (workspaceId : String) : WorkspaceM Workspace := do
  match ← WorkspaceRepository.get workspaceId with
  | none => throw (notFound "Workspace" workspaceId)
  | some workspace => return workspace

def list (projectScope : String) : WorkspaceM (List Workspace) := do
  let workspaces ← WorkspaceRepository.list
  if projectScope ≠ "" then
    return workspaces.filter fun workspace => workspace.projectScope == projectScope
  else return workspaces

/-- `_need`. -/
def need (workspace : Workspace) (nodeId : String) : Except Error WorkspaceNode :=
  match workspace.nodes.get nodeId with
  | none => .error (notFound "WorkspaceNode" nodeId)
  | some node => .ok node

/-- The position of a node, or that of a new one. -/
def layoutOf (workspace : Workspace) (nodeId : String) : NodeLayout :=
  (workspace.layout.get nodeId).getD {}

def addNode (runtime : WorkspaceRuntime) (now : Int) (id workspaceId : String)
    (nodeType : NodeType) (props : Json) (dataRef : Option DataRef) (salience : PyFloat)
    (affordances : List String) : WorkspaceM WorkspaceNode := do
  let workspace ← get workspaceId
  let props ← MonadExcept.ofExcept
    (validateProps runtime (if props.truthy then props else .obj []))
  let affordances ← MonadExcept.ofExcept (validateAffordances nodeType affordances)
  let node : WorkspaceNode := {
    id := id
    updatedAt := now
    nodeType := nodeType
    props := props
    dataRef := dataRef
    salience := salience.clamp
    affordances := affordances }
  let _ ← WorkspaceRepository.update now { workspace with
    nodes := workspace.nodes.set node.id node
    layout := workspace.layout.set node.id {} }
  return node

/-- The props of an update: those of the node where none are given. -/
def revisedProps (runtime : WorkspaceRuntime) (node : WorkspaceNode) (props : Json) :
    Except Error (List (String × Json)) :=
  match props with
  | .null => .ok node.props
  | given => validateProps runtime given

def updateNode (runtime : WorkspaceRuntime) (now : Int) (workspaceId nodeId : String)
    (props : Json) (state : Option NodeState) : WorkspaceM WorkspaceNode := do
  let workspace ← get workspaceId
  let node ← MonadExcept.ofExcept (need workspace nodeId)
  if node.state = .frozen then
    throw (.domainValidation ("node " ++ Text.repr nodeId ++ " is FROZEN"))
  let props ← MonadExcept.ofExcept (revisedProps runtime node props)
  let node : WorkspaceNode := { node with
    props := props
    state := state.getD node.state
    updatedAt := now }
  let _ ← WorkspaceRepository.update now { workspace with
    nodes := workspace.nodes.set nodeId node }
  return node

def removeNode (now : Int) (workspaceId nodeId : String) : WorkspaceM Bool := do
  let workspace ← get workspaceId
  if (workspace.nodes.get nodeId).isNone then
    return false
  let _ ← WorkspaceRepository.update now { workspace with
    nodes := workspace.nodes.erase nodeId
    layout := workspace.layout.erase nodeId
    focusedNode := if workspace.focusedNode = nodeId then "" else workspace.focusedNode }
  return true

def moveNode (now : Int) (workspaceId nodeId : String) (x y width height : Json) :
    WorkspaceM NodeLayout := do
  let x ← MonadExcept.ofExcept (readLayout "x" x)
  let y ← MonadExcept.ofExcept (readLayout "y" y)
  let width ← MonadExcept.ofExcept (readLayout "width" width)
  let height ← MonadExcept.ofExcept (readLayout "height" height)
  let workspace ← get workspaceId
  let _ ← MonadExcept.ofExcept (need workspace nodeId)
  let layout := layoutOf workspace nodeId
  let layout : NodeLayout := { layout with
    x := x
    y := y
    width := if 0 < width then width else layout.width
    height := if 0 < height then height else layout.height }
  let _ ← WorkspaceRepository.update now { workspace with
    layout := workspace.layout.set nodeId layout }
  return layout

/-- The loop of `group_nodes`. -/
def regroup (group : String) : List String → Workspace → Except Error Workspace
  | [], workspace => .ok workspace
  | nodeId :: rest, workspace => do
      let _ ← need workspace nodeId
      let layout := { layoutOf workspace nodeId with group := group }
      regroup group rest { workspace with layout := workspace.layout.set nodeId layout }

def groupNodes (now : Int) (workspaceId group : String) (nodeIds : List String) :
    WorkspaceM Unit := do
  let workspace ← get workspaceId
  let workspace ← MonadExcept.ofExcept (regroup group nodeIds workspace)
  let _ ← WorkspaceRepository.update now workspace

def setCollapsed (runtime : WorkspaceRuntime) (now : Int) (workspaceId nodeId : String)
    (collapsed : Bool) : WorkspaceM WorkspaceNode := do
  let workspace ← get workspaceId
  let _ ← MonadExcept.ofExcept (need workspace nodeId)
  updateNode runtime now workspaceId nodeId .null
    (some (if collapsed then .collapsed else .live))

def focus (now : Int) (workspaceId nodeId : String) : WorkspaceM Unit := do
  let workspace ← get workspaceId
  let _ ← MonadExcept.ofExcept (need workspace nodeId)
  let _ ← WorkspaceRepository.update now { workspace with focusedNode := nodeId }

/-- The ids of the nodes that are collapsed. -/
def collapsedIds (workspace : Workspace) : List String :=
  (workspace.nodes.entries.filter fun entry => entry.2.state = .collapsed).map Prod.fst

/-- The nodes whose own group is not collapsed. -/
def visible (workspace : Workspace) : List WorkspaceNode :=
  (workspace.nodes.entries.filter fun entry =>
    (layoutOf workspace entry.1).group ∉ collapsedIds workspace).map Prod.snd

def visibleNodes (workspaceId : String) : WorkspaceM (List WorkspaceNode) := do
  let workspace ← get workspaceId
  return visible workspace

def applyUpdate (runtime : WorkspaceRuntime) (now : Int) (id workspaceId : String)
    (update : Json) : WorkspaceM WorkspaceNode := do
  let .obj fields := update
    | throw (.domainValidation "workspace update must be a mapping")
  let field (key : String) (default : Json) : Json := (Json.lookup key fields).getD default
  let some nodeType := NodeType.ofValue (field "type" (.str "")).text
    | throw (.domainValidation ("unknown node type " ++ (field "type" .null).repr))
  let dataRef ← MonadExcept.ofExcept (readDataRef runtime (field "data_ref" .null))
  let salience ← MonadExcept.ofExcept
    (readSalience runtime (field "salience" (.float "0.5")))
  if !(PyFloat.le (.finite 0) salience && PyFloat.le salience (.finite 1)) then
    throw (.domainValidation "salience must be within [0, 1]")
  let affordances ← MonadExcept.ofExcept (readAffordances (field "affordances" (.arr [])))
  addNode runtime now id workspaceId nodeType (field "props" (.obj [])) dataRef salience
    affordances

end WorkspaceManager

end Raphael.Interface
