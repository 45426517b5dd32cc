import Raphael.Core.Payload

/-! # Data policy

The class of a value, and the destinations it may leave for. -/

namespace Raphael.Security

open Core

inductive DataClass
  | publicData
  | internal
  | personal
  | sensitive
  | secret
  deriving DecidableEq, Repr

structure EgressDecision where
  allowed : Bool
  classification : DataClass
  destination : String
  reason : String
  deriving DecidableEq, Repr

structure PermissionError where
  reason : String
  deriving DecidableEq, Repr

structure DataPolicy where
  localDestinations : List String := ["local", "loopback"]
  approvedSensitiveDestinations : List String := []
  approvedPersonalDestinations : List String := []

namespace DataPolicy

/-! `_contains_secret` enters every collection, and looks at a value of a dict twice. -/

mutual
def containsSecret : Payload → Bool
  | .dict entries => entriesContainSecret entries
  | .collection _ items => itemsContainSecret items
  | .str text => Secrets.looksLikeSecretValue text
  | .scalar _ => false

def itemsContainSecret : List Payload → Bool
  | [] => false
  | item :: rest => containsSecret item || itemsContainSecret rest

def entriesContainSecret : List (PyKey × Payload) → Bool
  | [] => false
  | (key, value) :: rest =>
      (Secrets.looksSecret key.text || containsSecret value || value.looksLikeSecretValue) ||
        entriesContainSecret rest
end

def personalKeys : List String :=
  ["email", "phone", "address", "name", "location", "dob", "date_of_birth"]

/-- `_looks_personal`. -/
def looksPersonal : Payload → Bool
  | .dict entries => entries.any fun entry =>
      String.ofList (entry.1.text.toList.flatMap Secrets.lower) ∈ personalKeys
  | _ => false

def classify (value : Payload) (declared : Option DataClass) : DataClass :=
  if declared = some .secret then .secret
  else if containsSecret value then .secret
  else
    match declared with
    | some dataClass => dataClass
    | none => if looksPersonal value then .personal else .internal

def decide (policy : DataPolicy) (value : Payload) (destination : String)
    (declared : Option DataClass) : EgressDecision :=
  let classification := classify value declared
  if destination ∈ policy.localDestinations then
    { allowed := true, classification, destination, reason := "local destination" }
  else
    match classification with
    | .secret =>
        { allowed := false, classification, destination,
          reason := "SECRET data may never leave the local trust boundary" }
    | .sensitive =>
        let allowed := destination ∈ policy.approvedSensitiveDestinations
        { allowed, classification, destination,
          reason := if allowed then "approved sensitive destination"
            else "SENSITIVE destination not approved" }
    | .personal =>
        let allowed := destination ∈ policy.approvedPersonalDestinations
        { allowed, classification, destination,
          reason := if allowed then "approved personal destination"
            else "PERSONAL destination not approved" }
    | .publicData | .internal =>
        { allowed := destination ∈ policy.approvedSensitiveDestinations ∨
            destination ∈ policy.approvedPersonalDestinations
          classification, destination,
          reason := "destination is not explicitly approved" }

def requireEgress (policy : DataPolicy) (value : Payload) (destination : String)
    (declared : Option DataClass) : Except PermissionError Unit :=
  let decision := policy.decide value destination declared
  if !decision.allowed then .error ⟨decision.reason⟩ else .ok ()

/-! The second look at a value finds nothing that the scanner does not find. -/

theorem containsSecret_of_looksLikeSecretValue {value : Payload}
    (shaped : value.looksLikeSecretValue = true) : containsSecret value = true := by
  cases value with
  | str text => exact shaped
  | _ => cases shaped

mutual
theorem containsSecret_eq_scan : (value : Payload) →
    containsSecret value = value.scan fun _ => true
  | .dict entries => by
      rw [containsSecret, Payload.scan, entriesContainSecret_eq_scanEntries]
  | .collection _ items => by
      rw [containsSecret, Payload.scan, itemsContainSecret_eq_scanItems, Bool.true_and]
  | .str _ => by rw [containsSecret, Payload.scan]
  | .scalar _ => by rw [containsSecret, Payload.scan]

theorem itemsContainSecret_eq_scanItems : (items : List Payload) →
    itemsContainSecret items = Payload.scanItems (fun _ => true) items
  | [] => rfl
  | item :: rest => by
      rw [itemsContainSecret, Payload.scanItems, containsSecret_eq_scan item,
        itemsContainSecret_eq_scanItems rest]

theorem entriesContainSecret_eq_scanEntries : (entries : List (PyKey × Payload)) →
    entriesContainSecret entries = Payload.scanEntries (fun _ => true) entries
  | [] => rfl
  | (key, value) :: rest => by
      have twice : (containsSecret value || value.looksLikeSecretValue) =
          containsSecret value := by
        cases shaped : value.looksLikeSecretValue with
        | false => rw [Bool.or_false]
        | true => rw [containsSecret_of_looksLikeSecretValue shaped, Bool.or_true]
      rw [entriesContainSecret, Payload.scanEntries, Bool.or_assoc (Secrets.looksSecret _),
        twice, containsSecret_eq_scan value, entriesContainSecret_eq_scanEntries rest]
end

/-- A value in which the scanner finds a secret leaves for local destinations only. -/
theorem requireEgress_ne_ok {value : Payload} (found : containsSecret value = true)
    (policy : DataPolicy) {destination : String}
    (abroad : destination ∉ policy.localDestinations) (declared : Option DataClass) :
    policy.requireEgress value destination declared ≠ .ok () := by
  have secret : classify value declared = .secret := by
    unfold classify
    rw [found, if_pos rfl, ite_self]
  unfold requireEgress decide
  simp [abroad, secret]

end DataPolicy

end Raphael.Security
