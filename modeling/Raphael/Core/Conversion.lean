import Mathlib.Algebra.GroupWithZero.Nat
import Raphael.Core.Json

/-! # Conversions

`str`, `int`, `float` and iteration of a JSON value, with what they raise. Which number a
text or a float's `repr` stands for is left open. -/

namespace Raphael.Core

inductive Raised
  | valueError (message : String)
  | typeError (message : String)
  | overflowError (message : String)

def Raised.message : Raised → String
  | .valueError message => message
  | .typeError message => message
  | .overflowError message => message

namespace Json

/-! A text can be made of an integer with at most 4300 digits. -/

mutual
def printable : Json → Bool
  | .int value => value.natAbs < 10 ^ 4300
  | .arr items => printableItems items
  | .obj fields => printableFields fields
  | _ => true

def printableItems : List Json → Bool
  | [] => true
  | item :: rest => printable item && printableItems rest

def printableFields : List (String × Json) → Bool
  | [] => true
  | (_, value) :: rest => printable value && printableFields rest
end

def tooManyDigits : Raised :=
  .valueError ("Exceeds the limit (4300 digits) for integer string conversion; " ++
    "use sys.set_int_max_str_digits() to increase the limit")

/-- `repr(value)`, where it may raise. -/
def tryRepr (value : Json) : Except Raised String :=
  if value.printable then .ok value.repr else .error tooManyDigits

/-- `str(value)`, where it may raise. -/
def tryText (value : Json) : Except Raised String :=
  if value.printable then .ok value.text else .error tooManyDigits

/-- The items a loop over the value visits. -/
def items : Json → Except Raised (List Json)
  | .arr items => .ok items
  | .str text => .ok (text.toList.map fun character => .str character.toString)
  | .obj fields => .ok (fields.map fun field => .str field.1)
  | value => .error (.typeError ("'" ++ value.typeName ++ "' object is not iterable"))

/-- A float that JSON has no number for. -/
def nonFinite (text : String) : Bool := text = "inf" || text = "-inf" || text = "nan"

end Json

/-- Which numbers texts and floats stand for. A text may be refused with a message. -/
structure Numerals where
  /-- `int(value)` of a finite float. -/
  truncated : String → Int
  intText : String → Except String Int
  /-- `float(value)` of an integer in the range of floats. -/
  floatOf : Int → String
  floatText : String → Except String String

namespace Numerals

variable (numerals : Numerals)

/-- `int(value)`. -/
def int : Json → Except Raised Int
  | .int value => .ok value
  | .bool value => .ok (if value then 1 else 0)
  | .str text => (numerals.intText text).mapError .valueError
  | .float text =>
      if text = "nan" then .error (.valueError "cannot convert float NaN to integer")
      else if Json.nonFinite text then
        .error (.overflowError "cannot convert float infinity to integer")
      else .ok (numerals.truncated text)
  | value =>
      .error (.typeError ("int() argument must be a string, a bytes-like object or a " ++
        "real number, not '" ++ value.typeName ++ "'"))

/-- The integers from here on round to a float beyond the largest one. -/
def floatLimit : Nat := 2 ^ 1024 - 2 ^ 970

/-- `float(value)`. -/
def float : Json → Except Raised String
  | .float text => .ok text
  | .bool value => .ok (if value then "1.0" else "0.0")
  | .int value =>
      if value.natAbs < floatLimit then .ok (numerals.floatOf value)
      else .error (.overflowError "int too large to convert to float")
  | .str text => (numerals.floatText text).mapError .valueError
  | value =>
      .error (.typeError ("float() argument must be a string or a real number, not '" ++
        value.typeName ++ "'"))

end Numerals

end Raphael.Core
