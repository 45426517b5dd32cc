import Raphael.Core.PyValue

/-! # The sanitizer

`redact` and `sanitize` on values nested from the builtin containers, models, dataclasses
and exceptions. -/

namespace Raphael.Core

/-- A Python value. One of no other kind is given by its `repr`. -/
inductive PyObject
  | str (text : String)
  | scalar (repr : String)
  | dict (entries : List (PyKey × PyObject))
  | list (items : List PyObject)
  | tuple (items : List PyObject)
  | set (items : List PyObject)
  | frozenset (items : List PyObject)
  /-- What `model_dump(mode="json")` returns, or `none` where it raises. -/
  | model (fields : List (String × PyObject)) (dumped : Option Json)
  /-- Whether `asdict` can copy what the fields hold. -/
  | dataclass (fields : List (String × PyObject)) (copies : Bool)
  /-- The name of the class, and `str(exc)`, or `none` where it raises. -/
  | exception (typeName : String) (text : Option String)

namespace PyObject

/-- `looks_like_secret_value(value)`. -/
def looksLikeSecret : PyObject → Bool
  | .str text => Secrets.looksLikeSecretValue text
  | _ => false

/-! ## Members of a set -/

/-- The kind of a value that cannot be in a set. -/
def unhashable : PyObject → Option String
  | .dict _ => some "dict"
  | .list _ => some "list"
  | .set _ => some "set"
  | _ => none

def isText (text : String) : PyObject → Bool
  | .str other => other == text
  | _ => false

/-- A text is in a set once. -/
def adjoin (item : PyObject) (others : List PyObject) : List PyObject :=
  match item with
  | .str text => if others.any (isText text) then others else item :: others
  | item => item :: others

/-- The set of the items. -/
def collect : List PyObject → Except Error (List PyObject)
  | [] => .ok []
  | item :: rest => do
      match item.unhashable with
      | some kind => throw (.other ("unhashable type: '" ++ kind ++ "'"))
      | none => return adjoin item (← collect rest)

/-! ## The recursion

`redactInside` is what `_redact_value` and `_sanitize_item` make of a value that they do not
mask, and `sanitizeItem` is `_sanitize_item`. -/

mutual
def redact : List (PyKey × PyObject) → Except Error (List (PyKey × PyObject))
  | [] => .ok []
  | (key, value) :: rest => do
      let named ← key.looksSecret
      let redacted ←
        if named || value.looksLikeSecret then pure (.str "***") else redactInside value
      let others ← redact rest
      return (key, redacted) :: others

def redactInside : PyObject → Except Error PyObject
  | .dict entries => return .dict (← redact entries)
  | .list items => return .list (← sanitizeItems items)
  | .tuple items => return .list (← sanitizeItems items)
  | .set items => return .set (← collect (← sanitizeItems items))
  | .frozenset items => return .set (← collect (← sanitizeItems items))
  | .str text => return .str text
  | .scalar repr => return .scalar repr
  | .model fields dumped => return .model fields dumped
  | .dataclass fields copies => return .dataclass fields copies
  | .exception typeName text => return .exception typeName text

def sanitizeItems : List PyObject → Except Error (List PyObject)
  | [] => .ok []
  | item :: rest => do
      let sanitized ← if item.looksLikeSecret then pure (.str "***") else redactInside item
      let others ← sanitizeItems rest
      return sanitized :: others
end

def sanitizeItem (item : PyObject) : Except Error PyObject :=
  if item.looksLikeSecret then .ok (.str "***") else redactInside item

/-! ## Objects -/

def sanitizeException (typeName text : String) : String :=
  if Secrets.looksLikeSecretValue (typeName ++ ": " ++ text) then typeName ++ ": ***"
  else typeName ++ ": " ++ text

/-! What `model_dump(mode="json")` returns. -/

mutual
def ofJson : Json → PyObject
  | .null => .scalar "None"
  | .bool true => .scalar "True"
  | .bool false => .scalar "False"
  | .int value => .scalar (toString value)
  | .float text => .scalar text
  | .str text => .str text
  | .arr items => .list (ofItems items)
  | .obj fields => .dict (ofFields fields)

def ofItems : List Json → List PyObject
  | [] => []
  | item :: rest => ofJson item :: ofItems rest

def ofFields : List (String × Json) → List (PyKey × PyObject)
  | [] => []
  | (key, value) :: rest => (.str key, ofJson value) :: ofFields rest
end

/-! `dataclasses.asdict`: it enters dataclasses, lists, tuples and dicts, and copies the
rest. -/

mutual
def asDict : PyObject → PyObject
  | .dataclass fields _ => .dict (asDictFields fields)
  | .list items => .list (asDictItems items)
  | .tuple items => .tuple (asDictItems items)
  | .dict entries => .dict (asDictEntries entries)
  | .str text => .str text
  | .scalar repr => .scalar repr
  | .set items => .set items
  | .frozenset items => .frozenset items
  | .model fields dumped => .model fields dumped
  | .exception typeName text => .exception typeName text

def asDictFields : List (String × PyObject) → List (PyKey × PyObject)
  | [] => []
  | (name, value) :: rest => (.str name, asDict value) :: asDictFields rest

def asDictItems : List PyObject → List PyObject
  | [] => []
  | item :: rest => asDict item :: asDictItems rest

def asDictEntries : List (PyKey × PyObject) → List (PyKey × PyObject)
  | [] => []
  | (key, value) :: rest => (key, asDict value) :: asDictEntries rest
end

/-- The result, or the value itself where an object could not be sanitized. -/
def orElse (value : PyObject) (result : Except Error PyObject) : PyObject :=
  result.toOption.getD value

def sanitize (value : PyObject) : Except Error PyObject :=
  match value with
  | .exception _ none => .error (.other "str() of the exception raises")
  | .exception typeName (some text) => .ok (.str (sanitizeException typeName text))
  | .model _ (some dump) => .ok (value.orElse (sanitizeItem (ofJson dump)))
  | .model _ none => .ok value
  | .dataclass fields true =>
      .ok (value.orElse (sanitizeItem (.dict (asDictFields fields))))
  | .dataclass _ false => .ok value
  | value => sanitizeItem value

end PyObject

end Raphael.Core
