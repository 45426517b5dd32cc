import Raphael.Foundation.Dict
import Raphael.Foundation.StepSystem
import Raphael.Security.DataPolicy
import Raphael.Tools.MCPDefinitions

/-! # The MCP manager

The servers, their connections and their tools. Each section under the manager's lock is one
step; between them an enabling call builds its connection, connects, and makes its tools. -/

namespace Raphael.Tools

open Core Foundation MCPEnvironment

inductive ServerStatus
  | connecting
  | connected
  | error (message : String)
  | disabled
  deriving DecidableEq, Repr

/-- A tool of the registry, with its handler if it is one of an MCP server. -/
structure RegisteredTool where
  tool : Tool
  handler : Option MCPHandler := none

structure MCPManager where
  registry : Dict String RegisteredTool := .empty
  configs : Dict String ServerConfig := .empty
  connections : Dict String Nat := .empty
  names : Dict String (List String) := .empty
  states : Dict String ServerStatus := .empty
  revisions : Dict String String := .empty
  closed : Bool := false
  /-- The connections that were closed. -/
  disposed : List Nat := []

/-- What a section raises or answers, and the manager that it leaves. The writing of the
configurations may raise behind the other changes. -/
abbrev MCPAnswer (answer : Type) := Except Error answer × MCPManager

namespace MCPManager

variable (manager : MCPManager)

def save (config : ServerConfig) (persisted : Except Error Unit) : MCPAnswer Unit :=
  if config.enabled then
    (.error (.other
      "Save disabled configuration first, then explicitly enable the server"), manager)
  else if manager.closed then (.error (.other "MCP manager is shutting down"), manager)
  else if 20 ≤ manager.configs.entries.length ∧ manager.configs.get config.id = none then
    (.error (.other "At most 20 MCP servers may be configured"), manager)
  else if (manager.configs.get config.id).any (·.enabled) then
    (.error (.other "Disable the server before editing its configuration"), manager)
  else (persisted, { manager with configs := manager.configs.set config.id config })

/-- `registry.unregister`, for each name. -/
def unregister (names : List String) : Dict String RegisteredTool :=
  names.foldl Dict.erase manager.registry

/-- `_revoke`. -/
def revoke (key : String) : MCPManager :=
  { manager with
    revisions := manager.revisions.erase key
    registry := manager.unregister ((manager.names.get key).getD [])
    names := manager.names.erase key
    connections := manager.connections.erase key
    disposed := (manager.connections.get key).toList ++ manager.disposed }

/-- The first section of `enable`, for the revision that is drawn. -/
def enter (key revision : String) (persisted : Except Error Unit) : MCPAnswer ServerConfig :=
  match manager.configs.get key with
  | none => (.error (.other "Unknown MCP server or runtime is stopping"), manager)
  | some known =>
      if manager.closed then
        (.error (.other "Unknown MCP server or runtime is stopping"), manager)
      else if manager.states.get key = some .connecting then
        (.error (.other "MCP server is already connecting"), manager)
      else
        let revoked := manager.revoke key
        let config := known.withEnabled true
        (persisted.map fun _ => config, { revoked with
          configs := revoked.configs.set key config
          revisions := revoked.revisions.set key revision
          states := revoked.states.set key .connecting })

/-- The session is the server's current one. -/
def holds (key revision : String) : Bool :=
  !manager.closed && manager.revisions.get key == some revision

/-- The second section of `enable`. -/
def join (key revision : String) (connection : Nat) : MCPAnswer Unit :=
  if manager.holds key revision then
    (.ok (), { manager with connections := manager.connections.set key connection })
  else (.error (.other "MCP connection was revoked"), manager)

/-- `registry.register`. -/
def register (tool : Tool) (handler : MCPHandler) : MCPAnswer Unit :=
  if tool.name = "" then
    (.error (.domainValidation "tool name must not be empty"), manager)
  else if (manager.registry.get tool.name).isSome then
    (.error (.domainValidation ("tool " ++ Text.repr tool.name ++ " already registered")),
      manager)
  else (.ok (), { manager with
    registry := manager.registry.set tool.name { tool, handler := some handler } })

def registerAll (manager : MCPManager) : List (Tool × MCPHandler) → MCPAnswer Unit
  | [] => (.ok (), manager)
  | (tool, handler) :: rest =>
      match manager.register tool handler with
      | (.error error, left) => (.error error, left)
      | (.ok _, left) => left.registerAll rest

/-- The third section of `enable`. -/
def publish (key revision : String) (connection : Nat) (tools : List (Tool × MCPHandler)) :
    MCPAnswer Unit :=
  if manager.holds key revision then
    match manager.registerAll tools with
    | (.error error, left) => (.error error, left)
    | (.ok _, left) => (.ok (), { left with
        names := left.names.set key (tools.map fun tool => tool.1.name)
        connections := left.connections.set key connection
        states := left.states.set key .connected })
  else (.error (.other "MCP connection was revoked"), manager)

/-- `connection.close()`. -/
def dispose (connection : Nat) : MCPManager :=
  { manager with disposed := connection :: manager.disposed }

/-- The section of `enable` behind an error. -/
def recordError (key revision message : String) : MCPManager :=
  if manager.revisions.get key = some revision then
    { manager with
      states := manager.states.set key (.error (if message = "" then
        "Could not connect or validate tools. Check the executable, URL and required " ++
          "environment variables, then retry." else message)) }
  else manager

def disable (key : String) (persisted : Except Error Unit) : MCPAnswer Unit :=
  match manager.configs.get key with
  | none => (.error (.other "Unknown MCP server"), manager)
  | some config =>
      let revoked := manager.revoke key
      (persisted, { revoked with
        configs := revoked.configs.set key (config.withEnabled false)
        states := revoked.states.set key .disabled })

def close : MCPManager :=
  (manager.connections.entries.map Prod.fst).foldl revoke { manager with closed := true }

/-- The section of a handler. -/
def heeds (handler : MCPHandler) : Except Error Bool :=
  if manager.closed || manager.revisions.get handler.key != some handler.revision then
    .ok false
  else
    match manager.configs.get handler.key with
    | none => .error (.other ("KeyError: " ++ Text.repr handler.key))
    | some config => .ok config.enabled

/-- The handler of an MCP tool in the registry. -/
def tool (name : String) : Option MCPHandler :=
  (manager.registry.get name).bind RegisteredTool.handler

end MCPManager

/-! ## Calls -/

/-- How far a call of `enable` is. The connection exists from `made` on. -/
inductive EnablePhase
  | opened
  | made
  | joined
  | validated (tools : List (Tool × MCPHandler))
  | failing
  | recording
  | published
  | failed
  /-- The factory raised. -/
  | raised

structure EnableCall where
  key : String
  revision : String
  config : ServerConfig
  /-- What the connection keeps from its tools. -/
  privateValues : List String := []
  phase : EnablePhase := .opened

/-- What the outside answers: the factory with the connection's private values, `connect`
with the definitions, and the connection's own error text. -/
structure ConnectReading where
  factory : Except Error (List String) := .ok []
  connect : Except Error (List Json) := .ok []
  error : String := ""

/-- A call of `restore`: the servers that it has still to look at, and the call of `enable`
that it waits for. -/
structure RestoreCall where
  remaining : List (String × ServerConfig)
  current : Option Nat := none

inductive HandlerPhase
  | refused
  | cleared
  | raised
  | requested
  deriving DecidableEq

/-- A call of a handler. It is late if its server was disabled, or the manager closed, since
the revision was drawn and before the call began. -/
structure HandlerCall where
  handler : MCPHandler
  arguments : Arguments
  late : Bool
  phase : HandlerPhase

/-- A registry without MCP tools; their names are kept for them. -/
structure OtherTools where
  registry : Dict String RegisteredTool := .empty
  plain : ∀ name entry, registry.get name = some entry →
    entry.handler = none ∧ Text.startsWith "mcp." name = false := by
      intro _ _ found
      cases found

/-- The manager with the calls so far. A connection has the number of its call. -/
structure MCPHistory where
  manager : MCPManager
  enables : List EnableCall := []
  restores : List RestoreCall := []
  handlers : List HandlerCall := []
  /-- The revisions that were drawn, with their servers. -/
  drawn : List (String × String) := []
  /-- Those of them whose server was disabled, or the manager closed, since. -/
  ended : List (String × String) := []

inductive MCPStep
  | save (config : ServerConfig) (persisted : Except Error Unit)
  | enable (key revision : String) (persisted : Except Error Unit)
  | advance (index : Nat) (reading : ConnectReading)
  | disable (key : String) (persisted : Except Error Unit)
  | restore
  | restoreNext (index : Nat) (revision : String) (persisted : Except Error Unit)
  | close
  | invoke (handler : MCPHandler) (arguments : Arguments)
  | send (index : Nat)

/-- The next phase of a call of `enable`, with the manager that it leaves. -/
def EnableCall.advance (environment : MCPEnvironment) (manager : MCPManager)
    (connection : Nat) (reading : ConnectReading) (call : EnableCall) :
    Option (EnableCall × MCPManager) :=
  match call.phase with
  | .opened =>
      match reading.factory with
      | .error _ => some ({ call with phase := .raised }, manager)
      | .ok privateValues => some ({ call with privateValues, phase := .made }, manager)
  | .made =>
      match manager.join call.key call.revision connection with
      | (.error _, left) => some ({ call with phase := .failing }, left)
      | (.ok _, left) => some ({ call with phase := .joined }, left)
  | .joined =>
      match reading.connect with
      | .error _ => some ({ call with phase := .failing }, manager)
      | .ok definitions =>
          match environment.buildTools call.config call.revision connection
              call.privateValues definitions with
          | .error _ => some ({ call with phase := .failing }, manager)
          | .ok tools => some ({ call with phase := .validated tools }, manager)
  | .validated tools =>
      match manager.publish call.key call.revision connection tools with
      | (.error _, left) => some ({ call with phase := .failing }, left)
      | (.ok _, left) => some ({ call with phase := .published }, left)
  | .failing => some ({ call with phase := .recording }, manager.dispose connection)
  | .recording =>
      some ({ call with phase := .failed },
        manager.recordError call.key call.revision reading.error)
  | .published | .failed | .raised => none

/-- The call has returned or raised. -/
def EnablePhase.over : EnablePhase → Bool
  | .published | .failed | .raised => true
  | _ => false

/-! The arguments of a call, as the values that the data policy reads. -/

mutual
def payload : Json → Payload
  | .null => .scalar "None"
  | .bool true => .scalar "True"
  | .bool false => .scalar "False"
  | .int value => .scalar (toString value)
  | .float text => .scalar text
  | .str text => .str text
  | .arr items => .collection .list (payloadItems items)
  | .obj fields => .dict (payloadFields fields)

def payloadItems : List Json → List Payload
  | [] => []
  | item :: rest => payload item :: payloadItems rest

def payloadFields : List (String × Json) → List (PyKey × Payload)
  | [] => []
  | (key, value) :: rest => (.str key, payload value) :: payloadFields rest
end

/-- What a handler's call checks behind the lock. -/
def mayLeave (key : String) (privateValues : List String) (arguments : Arguments) : Bool :=
  let destination := "mcp:" ++ key
  let policy : Security.DataPolicy := {
    approvedSensitiveDestinations := [destination]
    approvedPersonalDestinations := [destination] }
  !leaksValue privateValues (Json.obj arguments).defaultText &&
    (policy.decide (payload (.obj arguments)) destination none).allowed

namespace MCPHistory

/-- Behind the first section of a call of `enable`. -/
def entered (history : MCPHistory) (key revision : String) (persisted : Except Error Unit) :
    Except Error ServerConfig × MCPHistory :=
  let (answer, manager) := history.manager.enter key revision persisted
  let drawn := history.drawn ++ [(key, revision)]
  match answer with
  | .error error => (.error error, { history with manager, drawn })
  | .ok config => (.ok config, { history with
      manager, drawn, enables := history.enables ++ [{ key, revision, config }] })

/-- No revision is drawn twice. -/
def Draws (history : MCPHistory) (revision : String) : Prop :=
  isRevision revision = true ∧ revision ∉ history.drawn.map Prod.snd

instance (history : MCPHistory) (revision : String) : Decidable (history.Draws revision) :=
  inferInstanceAs (Decidable (_ ∧ _))

/-- The call of `enable` that a call of `restore` waits for. -/
def awaited (history : MCPHistory) (call : RestoreCall) : Option EnablePhase :=
  (call.current.bind fun index => history.enables[index]?).map (·.phase)

/-- The next turn of a call of `restore`. It ends where `enable` raises. -/
def restoreNext (history : MCPHistory) (index : Nat) (call : RestoreCall) (revision : String)
    (persisted : Except Error Unit) : Option MCPHistory :=
  match history.awaited call with
  | some .raised => some { history with restores := history.restores.set index ⟨[], none⟩ }
  | awaited =>
      if awaited.any (!·.over) then none
      else
        match call.remaining with
        | [] => none
        | (key, config) :: rest =>
            if history.manager.closed || !config.enabled then
              some { history with restores := history.restores.set index ⟨rest, none⟩ }
            else if history.Draws revision then
              match history.entered key revision persisted with
              | (.error _, next) =>
                  some { next with restores := next.restores.set index ⟨[], none⟩ }
              | (.ok _, next) =>
                  some { next with
                    restores := next.restores.set index ⟨rest, some history.enables.length⟩ }
            else none

/-- A handler is called. -/
def invoked (history : MCPHistory) (handler : MCPHandler) (arguments : Arguments) :
    HandlerCall where
  handler := handler
  arguments := arguments
  late := (handler.key, handler.revision) ∈ history.ended
  phase :=
    match history.manager.heeds handler with
    | .error _ => .raised
    | .ok false => .refused
    | .ok true => .cleared

/-- A handler's call that was cleared sends its request, unless the arguments may not leave. -/
def sent (history : MCPHistory) (call : HandlerCall) : HandlerCall :=
  let privateValues :=
    (history.enables[call.handler.connection]?.map (·.privateValues)).getD []
  { call with
    phase :=
      if mayLeave call.handler.key privateValues call.arguments then .requested else .raised }

def step (environment : MCPEnvironment) : StepFunction MCPHistory MCPStep
  | history, .save config persisted =>
      some { history with manager := (history.manager.save config persisted).2 }
  | history, .enable key revision persisted =>
      if history.Draws revision then some (history.entered key revision persisted).2 else none
  | history, .advance index reading => do
      let call ← history.enables[index]?
      let (next, manager) ← call.advance environment history.manager index reading
      return { history with manager, enables := history.enables.set index next }
  | history, .disable key persisted =>
      match history.manager.disable key persisted with
      | (.error _, manager) => some { history with manager }
      | (.ok _, manager) => some { history with
          manager, ended := history.ended ++ history.drawn.filter (·.1 == key) }
  | history, .restore => some { history with
      restores := history.restores ++ [{ remaining := history.manager.configs.entries }] }
  | history, .restoreNext index revision persisted => do
      let call ← history.restores[index]?
      history.restoreNext index call revision persisted
  | history, .close => some { history with
      manager := history.manager.close, ended := history.drawn }
  | history, .invoke handler arguments => some { history with
      handlers := history.handlers ++ [history.invoked handler arguments] }
  | history, .send index => do
      let call ← history.handlers[index]?
      if call.phase = .cleared then
        return { history with handlers := history.handlers.set index (history.sent call) }
      else none

/-- The manager is built over the configurations that were stored, and a registry that holds
other tools. -/
def start (stored : List ServerConfig) (others : OtherTools) : MCPHistory where
  manager := {
    registry := others.registry
    configs := stored.foldl (fun configs config => configs.set config.id config) .empty }

end MCPHistory

end Raphael.Tools
