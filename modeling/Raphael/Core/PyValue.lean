import Raphael.Core.Errors
import Raphael.Core.Secrets

/-! # Values of any shape, and their redaction

What a tool may put out: Python scalars, lists and dicts, whose keys are any hashable
values. Redaction reads the keys as text. -/

namespace Raphael.Core

/-- A key of a dict. One that is not text is given by its type and its `repr`. -/
inductive PyKey
  | str (text : String)
  | other (typeName : String) (repr : String)
  deriving DecidableEq, Repr

/-- A scalar that is neither `None` nor text is given by its `repr`. -/
inductive PyValue
  | none
  | str (text : String)
  | scalar (repr : String)
  | list (items : List PyValue)
  | dict (entries : List (PyKey × PyValue))

namespace PyKey

def repr : PyKey → String
  | .str text => Text.repr text
  | .other _ repr => repr

/-- `looks_secret(key)`, which takes the key for text: `lower` is missing on most other
keys, and bytes do not go with the pattern. -/
def looksSecret : PyKey → Except Error Bool
  | .str text => .ok (Secrets.looksSecret text)
  | .other "bytes" _ => .error (.other "cannot use a string pattern on a bytes-like object")
  | .other typeName _ =>
      .error (.other ("'" ++ typeName ++ "' object has no attribute 'lower'"))

end PyKey

namespace PyValue

/-! `repr(value)`. -/

mutual
def repr : PyValue → String
  | .none => "None"
  | .str text => Text.repr text
  | .scalar repr => repr
  | .list items => "[" ++ Text.join ", " (reprItems items) ++ "]"
  | .dict entries => "\x7b" ++ Text.join ", " (reprEntries entries) ++ "\x7d"

def reprItems : List PyValue → List String
  | [] => []
  | item :: rest => repr item :: reprItems rest

def reprEntries : List (PyKey × PyValue) → List String
  | [] => []
  | (key, value) :: rest => (key.repr ++ ": " ++ repr value) :: reprEntries rest
end

/-- `looks_like_secret_value(value)`. -/
def looksLikeSecret : PyValue → Bool
  | .str text => Secrets.looksLikeSecretValue text
  | _ => false

/-- `looks_secret(key) or looks_like_secret_value(value)`. -/
def masks (key : PyKey) (value : PyValue) : Except Error Bool := do
  return (← key.looksSecret) || value.looksLikeSecret

/-! `redact`; `redactInside` is what `_redact_value` and `_sanitize_item` make of a value
that they do not mask. -/

mutual
def redact : List (PyKey × PyValue) → Except Error (List (PyKey × PyValue))
  | [] => .ok []
  | (key, value) :: rest => do
      let hidden ← masks key value
      let redacted ← if hidden then pure (.str "***") else redactInside value
      let others ← redact rest
      return (key, redacted) :: others

def redactInside : PyValue → Except Error PyValue
  | .dict entries => return .dict (← redact entries)
  | .list items => return .list (← sanitizeItems items)
  | .none => return .none
  | .str text => return .str text
  | .scalar repr => return .scalar repr

def sanitizeItems : List PyValue → Except Error (List PyValue)
  | [] => .ok []
  | item :: rest => do
      let sanitized ← if item.looksLikeSecret then pure (.str "***") else redactInside item
      let others ← sanitizeItems rest
      return sanitized :: others
end

/-! The dicts that redaction comes to have text as keys: what stands under a key that
smells like a credential is masked unseen. -/

mutual
def redactable : List (PyKey × PyValue) → Bool
  | [] => true
  | (.str text, value) :: rest =>
      (Secrets.looksSecret text || insideRedactable value) && redactable rest
  | (.other _ _, _) :: _ => false

def insideRedactable : PyValue → Bool
  | .dict entries => redactable entries
  | .list items => itemsRedactable items
  | .none | .str _ | .scalar _ => true

def itemsRedactable : List PyValue → Bool
  | [] => true
  | item :: rest => insideRedactable item && itemsRedactable rest
end

private theorem isOk_bind {First Second : Type} {given : Except Error First}
    {rest : First → Except Error Second} {answer : Bool}
    (follows : ∀ value, (rest value).isOk = answer) :
    (given >>= rest).isOk = (given.isOk && answer) := by
  cases given with
  | error error => rfl
  | ok value => exact (follows value).trans (Bool.true_and _).symm

private theorem isOk_map {First Second : Type} (given : Except Error First)
    (change : First → Second) :
    (given >>= fun value => pure (change value)).isOk = given.isOk := by
  cases given <;> rfl

private theorem masks_other (typeName repr : String) (value : PyValue) :
    ∃ error, masks (.other typeName repr) value = .error error := by
  unfold masks PyKey.looksSecret
  split
  · cases ‹PyKey.other typeName repr = .str _›
  · exact ⟨_, rfl⟩
  · exact ⟨_, rfl⟩

private theorem masks_text (text : String) (value : PyValue) :
    masks (.str text) value = .ok (Secrets.looksSecret text || value.looksLikeSecret) := rfl

/-- A value that looks like a credential is text. -/
private theorem insideRedactable_of_secret {value : PyValue}
    (secret : value.looksLikeSecret = true) : insideRedactable value = true := by
  cases value with
  | str text => rfl
  | dict entries => cases secret
  | list items => cases secret
  | none => cases secret
  | scalar repr => cases secret

/-! Redaction goes through on these values, and raises on all others. -/

mutual
theorem isOk_redact : (entries : List (PyKey × PyValue)) →
    (redact entries).isOk = redactable entries
  | [] => rfl
  | (.other typeName repr, value) :: rest => by
      rcases masks_other typeName repr value with ⟨error, raises⟩
      rw [redact, raises]
      rfl
  | (.str text, value) :: rest => by
      have tail : ∀ redacted, (redact rest >>= fun others =>
          pure ((PyKey.str text, redacted) :: others)).isOk = redactable rest :=
        fun _ => (isOk_map _ _).trans (isOk_redact rest)
      rw [redact, redactable, masks_text]
      cases hidden : Secrets.looksSecret text || value.looksLikeSecret with
      | true =>
          have reached : (Secrets.looksSecret text || insideRedactable value) = true := by
            rcases Bool.or_eq_true _ _ ▸ hidden with byKey | byValue
            · rw [byKey, Bool.true_or]
            · rw [insideRedactable_of_secret byValue, Bool.or_true]
          rw [reached, Bool.true_and]
          exact tail _
      | false =>
          have unmasked := (Bool.or_eq_false_iff.mp hidden).1
          rw [unmasked, Bool.false_or, ← isOk_redactInside value]
          have redacted := @isOk_bind _ _ (redactInside value) _ _ tail
          exact redacted

theorem isOk_redactInside : (value : PyValue) →
    (redactInside value).isOk = insideRedactable value
  | .dict entries => by
      rw [redactInside, insideRedactable, ← isOk_redact entries]
      exact isOk_map _ _
  | .list items => by
      rw [redactInside, insideRedactable, ← isOk_sanitizeItems items]
      exact isOk_map _ _
  | .none => rfl
  | .str _ => rfl
  | .scalar _ => rfl

theorem isOk_sanitizeItems : (items : List PyValue) →
    (sanitizeItems items).isOk = itemsRedactable items
  | [] => rfl
  | item :: rest => by
      have tail : ∀ sanitized, (sanitizeItems rest >>= fun others =>
          pure (sanitized :: others)).isOk = itemsRedactable rest :=
        fun _ => (isOk_map _ _).trans (isOk_sanitizeItems rest)
      rw [sanitizeItems, itemsRedactable]
      cases secret : item.looksLikeSecret with
      | true =>
          rw [insideRedactable_of_secret secret, Bool.true_and]
          exact tail _
      | false =>
          rw [← isOk_redactInside item]
          exact isOk_bind tail
end

/-! JSON values, whose keys are text. -/

mutual
def ofJson : Json → PyValue
  | .null => .none
  | .bool true => .scalar "True"
  | .bool false => .scalar "False"
  | .int value => .scalar (toString value)
  | .float text => .scalar text
  | .str text => .str text
  | .arr items => .list (ofItems items)
  | .obj fields => .dict (ofFields fields)

def ofItems : List Json → List PyValue
  | [] => []
  | item :: rest => ofJson item :: ofItems rest

def ofFields : List (String × Json) → List (PyKey × PyValue)
  | [] => []
  | (key, value) :: rest => (.str key, ofJson value) :: ofFields rest
end

mutual
theorem insideRedactable_ofJson : (value : Json) → insideRedactable (ofJson value) = true
  | .null | .bool true | .bool false | .int _ | .float _ | .str _ => rfl
  | .arr items => itemsRedactable_ofItems items
  | .obj fields => redactable_ofFields fields

theorem itemsRedactable_ofItems : (items : List Json) →
    itemsRedactable (ofItems items) = true
  | [] => rfl
  | item :: rest => by
      rw [ofItems, itemsRedactable, insideRedactable_ofJson item,
        itemsRedactable_ofItems rest, Bool.and_self]

theorem redactable_ofFields : (fields : List (String × Json)) →
    redactable (ofFields fields) = true
  | [] => rfl
  | (key, value) :: rest => by
      rw [ofFields, redactable, insideRedactable_ofJson value, redactable_ofFields rest,
        Bool.or_true, Bool.and_self]
end

end PyValue

end Raphael.Core
