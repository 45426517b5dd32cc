import Raphael.Core.Domain
import Raphael.Core.Secrets
import Raphael.Foundation.FallibleFold

/-! # MCP tool definitions

The configuration of an MCP server, and the tools that are made of the definitions that it
announces. -/

namespace Raphael.Tools

open Core Foundation

inductive MCPTransport
  | stdio
  | http
  deriving DecidableEq, Repr

def MCPTransport.text : MCPTransport → String
  | .stdio => "stdio"
  | .http => "http"

/-- `[a-zA-Z0-9_-]`. -/
def isSlugCharacter (character : Char) : Bool :=
  Secrets.isAlnum character || character == '_' || character == '-'

/-- `^[a-zA-Z0-9_-]{1,48}$`. -/
def isServerId (id : String) : Bool :=
  1 ≤ id.length && id.length ≤ 48 && id.toList.all isSlugCharacter

structure ServerConfig where
  id : String
  transport : MCPTransport := .stdio
  command : String := ""
  args : List String := []
  url : String := ""
  envNames : List String := []
  enabled : Bool := false
  timeoutS : Nat := 30
  valid : isServerId id = true := by decide

/-- `model_copy(update={"enabled": enabled})`. -/
def ServerConfig.withEnabled (config : ServerConfig) (enabled : Bool) : ServerConfig :=
  { config with enabled }

/-- `model_dump(exclude={"enabled", "timeout_s"})`. -/
def ServerConfig.target (config : ServerConfig) : Json :=
  .obj [
    ("id", .str config.id),
    ("transport", .str config.transport.text),
    ("command", .str config.command),
    ("args", .arr (config.args.map Json.str)),
    ("url", .str config.url),
    ("env_names", .arr (config.envNames.map Json.str))]

/-! ## Schemas -/

def schemaDialect : String := "https://json-schema.org/draft/2020-12/schema"

/-- `value == text`. -/
def isText (text : String) : Json → Bool
  | .str value => value == text
  | _ => false

/-- What `visit` does not allow in a mapping. -/
def schemaObjection (fields : List (String × Json)) : Option String :=
  let holds (key : String) : Bool := (Json.lookup key fields).isSome
  if (Json.lookup "$schema" fields).any fun dialect => !isText schemaDialect dialect then
    some "MCP schema dialect overrides are not supported"
  else if holds "dependencies" then
    some "Legacy MCP schema dependencies are not supported"
  else if holds "pattern" || holds "patternProperties" then
    some "Regex-bearing MCP schemas are not supported"
  else if holds "$ref" || holds "$dynamicRef" then
    some "External or recursive MCP schema references are forbidden"
  else none

def namedSchemas : List String := ["properties", "dependentSchemas", "$defs", "definitions"]

def listedSchemas : List String := ["allOf", "anyOf", "oneOf", "prefixItems"]

def singleSchemas : List String :=
  ["items", "contains", "not", "if", "then", "else", "propertyNames", "additionalProperties",
    "unevaluatedProperties", "unevaluatedItems"]

/-! `visit` counts the values that it comes to. -/

mutual
def visit (depth nodes : Nat) : Json → Except String Nat
  | .obj fields =>
      if 16 < depth ∨ 512 < nodes + 1 then .error "MCP schema exceeds depth limit"
      else
        match schemaObjection fields with
        | some objection => .error objection
        | none => visitFields depth (nodes + 1) fields
  | _ =>
      if 16 < depth ∨ 512 < nodes + 1 then .error "MCP schema exceeds depth limit"
      else .ok (nodes + 1)

def visitFields (depth nodes : Nat) : List (String × Json) → Except String Nat
  | [] => .ok nodes
  | (key, item) :: rest => do
      let nodes ←
        if namedSchemas.contains key && item.typeName == "dict" then
          visitNamed (depth + 1) nodes item
        else if listedSchemas.contains key && item.typeName == "list" then
          visitListed (depth + 1) nodes item
        else if singleSchemas.contains key then visit (depth + 1) nodes item
        else .ok nodes
      visitFields depth nodes rest

def visitNamed (depth nodes : Nat) : Json → Except String Nat
  | .obj children => visitValues depth nodes children
  | _ => .ok nodes

def visitListed (depth nodes : Nat) : Json → Except String Nat
  | .arr children => visitItems depth nodes children
  | _ => .ok nodes

def visitValues (depth nodes : Nat) : List (String × Json) → Except String Nat
  | [] => .ok nodes
  | (_, child) :: rest => do
      let nodes ← visit depth nodes child
      visitValues depth nodes rest

def visitItems (depth nodes : Nat) : List Json → Except String Nat
  | [] => .ok nodes
  | child :: rest => do
      let nodes ← visit depth nodes child
      visitItems depth nodes rest
end

/-- What the manager takes from elsewhere: the schema validator's check, the digest of a
text, and the reading of a server's configuration. -/
structure MCPEnvironment where
  checkSchema : Json → Except String Unit
  sha256 : String → String

namespace MCPEnvironment

variable (environment : MCPEnvironment)

def checkedSchema (schema : Json) : Except String Json :=
  match schema with
  | .obj fields =>
      if (Json.lookup "type" fields).any fun value => !isText "object" value then
        .error "MCP tools require an object input schema"
      else if 64000 < schema.defaultText.length then .error "MCP schema exceeds size limit"
      else do
        let _ ← visit 0 0 schema
        environment.checkSchema schema
        .ok schema
  | _ => .error "MCP tools require an object input schema"

/-! ## Tools -/

/-- A private value occurs in an encoded text, as it is or escaped. -/
def leaksValue (privateValues : List String) (encoded : String) : Bool :=
  privateValues.any fun value =>
    value != "" && (Text.contains value encoded ||
      Text.contains (String.ofList ((Json.quote value).toList.drop 1).dropLast) encoded)

/-- `re.sub(r"[^a-zA-Z0-9_-]", "_", remote_name)[:50]`. -/
def slug (remoteName : String) : String :=
  Text.take 50 (String.ofList (remoteName.toList.map fun character =>
    if isSlugCharacter character then character else '_'))

def toolName (key revision : String) (index : Nat) (remoteName : String) : String :=
  "mcp." ++ key ++ "." ++ revision ++ "." ++ index.repr ++ "_" ++ slug remoteName

/-- `uuid.uuid4().hex[:12]` is one of these. -/
def isRevision (revision : String) : Bool :=
  revision.length == 12 && revision.toList.all fun character =>
    Secrets.isDigit character || "abcdef".toList.contains character

/-- What `_handler` closes over; the connection is given by its number. -/
structure MCPHandler where
  key : String
  revision : String
  remoteName : String
  connection : Nat
  deriving DecidableEq

/-- The name and the input schema of a definition that has nothing against it. -/
def checkDefinition (privateValues : List String) (definition : Json) :
    Except String (String × Json) := do
  let serialized := definition.defaultText
  if Secrets.looksLikeSecretValue serialized || leaksValue privateValues serialized then
    throw "MCP tool metadata contains credential data"
  let .obj fields := definition | throw "object has no attribute 'get'"
  let some (.str remoteName) := Json.lookup "name" fields | throw "Invalid MCP tool name"
  if remoteName = "" ∨ 200 < remoteName.length then throw "Invalid MCP tool name"
  let schema ← environment.checkedSchema
    ((Json.lookup "inputSchema" fields).getD (.obj []))
  match Json.lookup "outputSchema" fields with
  | none | some .null => pure ()
  | some output => let _ ← environment.checkedSchema output
  return (remoteName, schema)

/-- The tool of one definition, and its handler. -/
def assembleTool (config : ServerConfig) (revision : String) (connection index : Nat)
    (checked : String × Json) : Tool × MCPHandler :=
  let digest := environment.sha256 config.target.sortKeys.defaultText
  ({ name := toolName config.id revision index checked.1
     inputSchema := checked.2
     riskLevel := .high
     requiresApproval := true
     capabilities := ["mcp-external"]
     networkAccess := config.transport == .http
     actionIdentity := "mcp:" ++ config.id ++ ":" ++ digest ++ ":" ++ checked.1
     timeoutS := (config.timeoutS + 5).repr ++ ".0" },
   { key := config.id, revision, remoteName := checked.1, connection })

def makeTools (config : ServerConfig) (revision : String) (connection : Nat)
    (privateValues : List String) : Nat → List Json → Except String (List (Tool × MCPHandler))
  | _, [] => .ok []
  | index, definition :: rest => do
      let checked ← environment.checkDefinition privateValues definition
      let tools ← makeTools config revision connection privateValues (index + 1) rest
      return environment.assembleTool config revision connection index checked :: tools

/-- The tools that `enable` makes of the definitions. -/
def buildTools (config : ServerConfig) (revision : String) (connection : Nat)
    (privateValues : List String) (definitions : List Json) :
    Except String (List (Tool × MCPHandler)) :=
  if 128 < definitions.length then .error "Too many MCP tools"
  else environment.makeTools config revision connection privateValues 0 definitions

/-! ## The names of the tools -/

theorem notMem_of_isServerId {id : String} (valid : isServerId id = true) :
    '.' ∉ id.toList := by
  intro member
  rw [isServerId, Bool.and_eq_true, List.all_eq_true] at valid
  exact absurd (valid.2 '.' member) (by decide)

theorem notMem_of_isRevision {revision : String} (valid : isRevision revision = true) :
    '.' ∉ revision.toList := by
  intro member
  rw [isRevision, Bool.and_eq_true, List.all_eq_true] at valid
  exact absurd (valid.2 '.' member) (by decide)

/-- The first separator tells what is in front of it. -/
private theorem parts_of_separated {separator : Char} {front front' rest rest' : List Char}
    (absent : separator ∉ front) (absent' : separator ∉ front')
    (same : front ++ separator :: rest = front' ++ separator :: rest') :
    front = front' ∧ rest = rest' := by
  induction front generalizing front' with
  | nil =>
      cases front' with
      | nil => exact ⟨rfl, (List.cons.inj same).2⟩
      | cons first others =>
          exact absurd (List.mem_cons.mpr (.inl (List.cons.inj same).1)) absent'
  | cons character front induction =>
      cases front' with
      | nil => exact absurd (List.mem_cons.mpr (.inl (List.cons.inj same).1.symm)) absent
      | cons first others =>
          rcases List.cons.inj same with ⟨rfl, behind⟩
          rcases induction (fun member => absent (List.mem_cons_of_mem _ member))
            (fun member => absent' (List.mem_cons_of_mem _ member)) behind with ⟨rfl, rest⟩
          exact ⟨rfl, rest⟩

private theorem notMem_repr (index : Nat) : '_' ∉ index.repr.toList := by
  rw [Nat.toList_repr]
  exact Nat.underscore_not_in_toDigits

/-- A tool's name tells its server, its revision and its place among the definitions. -/
theorem toolName_inj {key key' revision revision' remoteName remoteName' : String}
    {index index' : Nat} (server : isServerId key = true) (server' : isServerId key' = true)
    (drawn : isRevision revision = true) (drawn' : isRevision revision' = true)
    (same : toolName key revision index remoteName =
      toolName key' revision' index' remoteName') :
    key = key' ∧ revision = revision' ∧ index = index' := by
  have texts := congrArg String.toList same
  simp only [toolName, String.toList_append, List.append_assoc] at texts
  have behind := List.append_cancel_left texts
  rcases parts_of_separated (notMem_of_isServerId server) (notMem_of_isServerId server')
    behind with ⟨keys, behind⟩
  rcases parts_of_separated (notMem_of_isRevision drawn) (notMem_of_isRevision drawn')
    behind with ⟨revisions, behind⟩
  rcases parts_of_separated (notMem_repr index) (notMem_repr index') behind with
    ⟨indices, _⟩
  exact ⟨String.toList_inj.mp keys, String.toList_inj.mp revisions,
    Text.decimal_inj (String.toList_inj.mp indices)⟩

theorem startsWith_toolName (key revision : String) (index : Nat) (remoteName : String) :
    Text.startsWith "mcp." (toolName key revision index remoteName) = true := by
  simp only [Text.startsWith, toolName, String.toList_append, List.append_assoc,
    List.isPrefixOf_iff_prefix]
  exact List.prefix_append _ _

theorem toolName_ne_empty (key revision : String) (index : Nat) (remoteName : String) :
    toolName key revision index remoteName ≠ "" := by
  intro empty
  have starts := startsWith_toolName key revision index remoteName
  rw [empty] at starts
  exact absurd starts (by decide)

/-! ## What is built -/

variable {environment : MCPEnvironment} {config : ServerConfig} {revision : String}
  {connection : Nat} {privateValues : List String} {definitions : List Json}

/-- A tool is the one of a place among the definitions, with the handler of its session. -/
def MadeAt (config : ServerConfig) (revision : String) (connection index : Nat)
    (tool : Tool × MCPHandler) : Prop :=
  ∃ remoteName, tool.1.name = toolName config.id revision index remoteName ∧
    tool.2 = { key := config.id, revision, remoteName, connection }

theorem makeTools_ok {first : Nat} {tools : List (Tool × MCPHandler)}
    (made : environment.makeTools config revision connection privateValues first definitions =
      .ok tools) {place : Nat} {tool : Tool × MCPHandler} (found : tools[place]? = some tool) :
    MadeAt config revision connection (first + place) tool := by
  induction definitions generalizing first tools place with
  | nil =>
      cases made
      cases found
  | cons definition rest induction =>
      rcases except_bind_eq_ok.mp made with ⟨checked, _, made⟩
      rcases except_bind_eq_ok.mp made with ⟨others, built, made⟩
      cases made
      cases place with
      | zero =>
          cases found
          exact ⟨checked.1, rfl, rfl⟩
      | succ place =>
          have behind : first + (place + 1) = first + 1 + place := by omega
          rw [behind]
          exact induction built found

/-- The tools of one session: each is named after it, and each name is there once. -/
structure Built (config : ServerConfig) (revision : String) (connection : Nat)
    (tools : List (Tool × MCPHandler)) : Prop where
  made : ∀ tool ∈ tools, ∃ index, MadeAt config revision connection index tool
  distinct : (tools.map fun tool => tool.1.name).Nodup

theorem built_of_buildTools {tools : List (Tool × MCPHandler)}
    (drawn : isRevision revision = true)
    (built : environment.buildTools config revision connection privateValues definitions =
      .ok tools) : Built config revision connection tools := by
  have made : environment.makeTools config revision connection privateValues 0 definitions =
      .ok tools := by
    unfold buildTools at built
    split at built
    · cases built
    · exact built
  constructor
  · intro tool member
    rcases List.getElem?_of_mem member with ⟨place, found⟩
    exact ⟨_, makeTools_ok made found⟩
  · rw [List.Nodup, List.pairwise_iff_getElem]
    intro left right insideLeft insideRight before same
    rw [List.length_map] at insideLeft insideRight
    rw [List.getElem_map, List.getElem_map] at same
    rcases makeTools_ok made (List.getElem?_eq_getElem insideLeft) with ⟨first, named, _⟩
    rcases makeTools_ok made (List.getElem?_eq_getElem insideRight) with ⟨second, named', _⟩
    rw [named, named'] at same
    have places := (toolName_inj config.valid config.valid drawn drawn same).2.2
    omega

end MCPEnvironment

end Raphael.Tools
