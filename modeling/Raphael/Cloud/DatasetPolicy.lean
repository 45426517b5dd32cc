import Raphael.Core.Payload

/-! # Dataset uploads

What may leave the PC as a dataset: a kind on the list, a size under the cap, and no
credentials. -/

namespace Raphael.Cloud

open Core

inductive DatasetError
  | policy (message : String)
  | other (message : String)
  deriving DecidableEq, Repr

/-- What `int(value)` raises. -/
inductive ConversionError
  | typeError
  | valueError
  | other (message : String)
  deriving DecidableEq, Repr

/-- A size that is not an int is given by what `int(size_bytes)` makes of it. -/
inductive SizeBytes
  | int (value : Int)
  | other (converted : Except ConversionError Int)

structure DatasetPolicy where
  allowedKinds : List String := ["dataset", "notebook", "model"]
  maxBytes : Int := 10000000

namespace DatasetPolicy

/-- An empty list of kinds stands for the default one. -/
def new (allowedKinds : List String) (maxBytes : Int) : DatasetPolicy where
  allowedKinds := if allowedKinds = [] then ["dataset", "notebook", "model"] else allowedKinds
  maxBytes := maxBytes

/-- `_contains_secrets`, which enters dicts, lists and tuples. -/
def containsSecrets (payload : Payload) : Bool :=
  payload.scan fun kind => kind = .list || kind = .tuple

def size (name : String) : SizeBytes → Except DatasetError Int
  | .int value => .ok value
  | .other (.ok value) => .ok value
  | .other (.error (.other message)) => .error (.other message)
  | .other (.error _) =>
      .error (.policy ("dataset " ++ Text.repr name ++ " has an invalid size"))

def check (policy : DatasetPolicy) (name kind : String) (sizeBytes : SizeBytes)
    (payload : Option Payload) : Except DatasetError Unit :=
  if kind ∉ policy.allowedKinds then
    .error (.policy ("dataset kind " ++ Text.repr kind ++ " is not uploadable"))
  else
    match size name sizeBytes with
    | .error error => .error error
    | .ok bytes =>
        if bytes < 0 then
          .error (.policy ("dataset " ++ Text.repr name ++ " has a negative size"))
        else if bytes > policy.maxBytes then
          .error (.policy ("dataset " ++ Text.repr name ++ " (" ++ toString bytes ++
            " bytes) exceeds " ++ toString policy.maxBytes ++ " limit"))
        else if payload.any containsSecrets then
          .error (.policy ("dataset " ++ Text.repr name ++ " appears to contain credentials"))
        else .ok ()

/-- A payload in which the scanner finds a secret is not accepted. -/
theorem check_ne_ok {payload : Payload} (found : containsSecrets payload = true)
    (policy : DatasetPolicy) (name kind : String) (sizeBytes : SizeBytes) :
    policy.check name kind sizeBytes (some payload) ≠ .ok () := by
  unfold check
  by_cases listed : kind ∉ policy.allowedKinds
  · simp [listed]
  · rw [if_neg listed]
    cases size name sizeBytes with
    | error error => simp
    | ok bytes =>
        by_cases negative : bytes < 0
        · simp [negative]
        · by_cases large : bytes > policy.maxBytes
          · simp [negative, large]
          · simp [negative, large, found]

end DatasetPolicy

end Raphael.Cloud
