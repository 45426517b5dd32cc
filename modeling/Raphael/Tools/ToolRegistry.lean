import Raphael.Core.Domain
import Raphael.Core.Errors

/-! # The tool registry

Named tools with their handlers and argument guards. The three tables of the
registry are written and cleared together, so that one list of entries holds
them. -/

namespace Raphael.Tools

open Core

/-- How a handler ends: it returns a tool result or another value, raises, or
exceeds its deadline. -/
inductive HandlerOutcome
  | result (result : ToolResult)
  | otherValue (typeName : String)
  | raised (error : Error)
  | deadline

abbrev ToolHandler := Arguments → HandlerOutcome

/-- A guard returns an objection, nothing, or raises. -/
abbrev ArgumentGuard := Arguments → Except Error (Option String)

structure RegistryEntry where
  tool : Tool
  handler : ToolHandler
  guard : Option ArgumentGuard := none

structure ToolRegistry where
  entries : List RegistryEntry := []
  distinct : (entries.map fun entry => entry.tool.name).Nodup := by simp

namespace ToolRegistry

def entry (registry : ToolRegistry) (name : String) : Option RegistryEntry :=
  registry.entries.find? fun entry => entry.tool.name == name

def get (registry : ToolRegistry) (name : String) : Option Tool :=
  (registry.entry name).map (·.tool)

def handler (registry : ToolRegistry) (name : String) : Option ToolHandler :=
  (registry.entry name).map (·.handler)

def argumentGuard (registry : ToolRegistry) (name : String) : Option ArgumentGuard :=
  (registry.entry name).bind (·.guard)

/-- Duplicate names are rejected. -/
def register (registry : ToolRegistry) (tool : Tool) (handler : ToolHandler)
    (guard : Option ArgumentGuard) : Except Error ToolRegistry :=
  if tool.name == "" then .error (.domainValidation "tool name must not be empty")
  else if fresh : tool.name ∈ registry.entries.map (fun entry => entry.tool.name) then
    .error (.domainValidation ("tool " ++ Text.repr tool.name ++ " already registered"))
  else .ok
    { entries := registry.entries ++ [{ tool, handler, guard }]
      distinct := by
        rw [List.map_append]
        exact List.nodup_append.mpr ⟨registry.distinct, by simp,
          fun name present other single equal => fresh (by
            rw [List.map_singleton, List.mem_singleton] at single
            exact single ▸ equal ▸ present)⟩ }

def unregister (registry : ToolRegistry) (name : String) : ToolRegistry where
  entries := registry.entries.filter fun entry => entry.tool.name != name
  distinct := registry.distinct.sublist (List.filter_sublist.map _)

/-- A tool is found under its own name. -/
theorem get_name {registry : ToolRegistry} {name : String} {tool : Tool}
    (found : registry.get name = some tool) : tool.name = name := by
  rcases Option.map_eq_some_iff.mp found with ⟨entry, present, rfl⟩
  simpa using List.find?_some present

/-- What is found is what is listed. -/
theorem isSome_get_iff {registry : ToolRegistry} {name : String} :
    (registry.get name).isSome ↔ name ∈ registry.entries.map fun entry => entry.tool.name := by
  simp [get, entry]

theorem handler_isSome_of_get {registry : ToolRegistry} {name : String} {tool : Tool}
    (found : registry.get name = some tool) : (registry.handler name).isSome := by
  rcases Option.map_eq_some_iff.mp found with ⟨entry, present, rfl⟩
  simp [handler, present]

end ToolRegistry

end Raphael.Tools
