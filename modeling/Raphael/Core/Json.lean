import Mathlib.Data.List.Sort
import Raphael.Core.Text

/-! # JSON values

Tool arguments, schemas and outputs. An object keeps the insertion order of its
keys, as a dict does. -/

namespace Raphael.Core

inductive Json
  | null
  | bool (value : Bool)
  | int (value : Int)
  /-- A float, given by its `repr`. -/
  | float (text : String)
  | str (text : String)
  | arr (items : List Json)
  | obj (fields : List (String × Json))
  deriving Repr, BEq, Inhabited

namespace Json

/-- The value under a key; a dict holds one value for each key. -/
def lookup (key : String) (fields : List (String × Json)) : Option Json :=
  (fields.find? (·.1 == key)).map (·.2)

/-- `fields[key] = value`: in place, or behind the other keys. -/
def insert {Value : Type u} (fields : List (String × Value)) (key : String)
    (value : Value) : List (String × Value) :=
  if fields.any (·.1 == key) then
    fields.map fun field => if field.1 == key then (key, value) else field
  else fields ++ [(key, value)]

/-- `{**base, **override}`. -/
def merge (base override : List (String × Json)) : List (String × Json) :=
  override.foldl (fun fields field => insert fields field.1 field.2) base

/-- `value.get(key)` on a dict, nothing on any other value. -/
def get? (value : Json) (key : String) : Option Json :=
  match value with
  | .obj fields => lookup key fields
  | _ => none

/-! `sort_keys=True` orders the keys of every object at every depth. -/

mutual
def sortKeys : Json → Json
  | .arr items => .arr (sortItems items)
  | .obj fields => .obj ((sortFields fields).insertionSort fun left right =>
      left.1 ≤ right.1)
  | .null => .null
  | .bool value => .bool value
  | .int value => .int value
  | .float text => .float text
  | .str text => .str text

def sortItems : List Json → List Json
  | [] => []
  | item :: rest => sortKeys item :: sortItems rest

def sortFields : List (String × Json) → List (String × Json)
  | [] => []
  | (key, value) :: rest => (key, sortKeys value) :: sortFields rest
end

/-- One UTF-16 unit as an escape. -/
def unicodeEscape (unit : Nat) : String := "\\u" ++ Text.hex 4 unit

/-- The escape of one character under `ensure_ascii`. -/
def escapeCharacter (character : Char) : String :=
  let code := character.toNat
  if character == '"' then "\\\""
  else if character == '\\' then "\\\\"
  else if character == '\n' then "\\n"
  else if character == '\r' then "\\r"
  else if character == '\t' then "\\t"
  else if code == 8 then "\\b"
  else if code == 12 then "\\f"
  else if 32 ≤ code && code ≤ 126 then character.toString
  else if code < 65536 then unicodeEscape code
  else unicodeEscape (55296 + (code - 65536) / 1024) ++
    unicodeEscape (56320 + (code - 65536) % 1024)

def quote (text : String) : String :=
  "\"" ++ String.join (text.toList.map escapeCharacter) ++ "\""

/-! `json.dumps` with the two separators. -/

mutual
def dumps (itemSeparator keySeparator : String) : Json → String
  | .null => "null"
  | .bool true => "true"
  | .bool false => "false"
  | .int value => toString value
  | .float text => text
  | .str text => quote text
  | .arr items =>
      "[" ++ Text.join itemSeparator (dumpItems itemSeparator keySeparator items) ++ "]"
  | .obj fields =>
      "\x7b" ++ Text.join itemSeparator
        (dumpFields itemSeparator keySeparator fields) ++ "\x7d"

def dumpItems (itemSeparator keySeparator : String) : List Json → List String
  | [] => []
  | item :: rest =>
      dumps itemSeparator keySeparator item :: dumpItems itemSeparator keySeparator rest

def dumpFields (itemSeparator keySeparator : String) :
    List (String × Json) → List String
  | [] => []
  | (key, value) :: rest =>
      (quote key ++ keySeparator ++ dumps itemSeparator keySeparator value) ::
        dumpFields itemSeparator keySeparator rest
end

/-- The canonical text that identities are hashed from. -/
def canonicalText (value : Json) : String := dumps "," ":" value.sortKeys

/-- `json.dumps` with its default separators. -/
def defaultText (value : Json) : String := dumps ", " ": " value

/-- `type(value).__name__`. -/
def typeName : Json → String
  | .null => "NoneType"
  | .bool _ => "bool"
  | .int _ => "int"
  | .float _ => "float"
  | .str _ => "str"
  | .arr _ => "list"
  | .obj _ => "dict"

/-- `bool(value)`. -/
def truthy : Json → Bool
  | .null => false
  | .bool value => value
  | .int value => value != 0
  | .float text => text != "0.0" && text != "-0.0"
  | .str text => text != ""
  | .arr items => !items.isEmpty
  | .obj fields => !fields.isEmpty

/-! `repr(value)`. -/

mutual
def repr : Json → String
  | .null => "None"
  | .bool true => "True"
  | .bool false => "False"
  | .int value => toString value
  | .float text => text
  | .str text => Text.repr text
  | .arr items => "[" ++ Text.join ", " (reprItems items) ++ "]"
  | .obj fields => "\x7b" ++ Text.join ", " (reprFields fields) ++ "\x7d"

def reprItems : List Json → List String
  | [] => []
  | item :: rest => repr item :: reprItems rest

def reprFields : List (String × Json) → List String
  | [] => []
  | (key, value) :: rest => (Text.repr key ++ ": " ++ repr value) :: reprFields rest
end

/-- `str(value)`. -/
def text : Json → String
  | .str text => text
  | value => repr value

end Json

end Raphael.Core
