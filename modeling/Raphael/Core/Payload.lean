import Raphael.Core.PyValue

/-! # Payloads, and the secrets in them

What a dict of Python values may hold: text, other scalars, dicts, and the four builtin
collections. The scanners differ in the collections that they enter. -/

namespace Raphael.Core

/-- `str(key)`. -/
def PyKey.text : PyKey → String
  | .str text => text
  | .other _ repr => repr

inductive Collection
  | list
  | tuple
  | set
  | frozenset
  deriving DecidableEq, Repr

/-- A scalar that is not text is given by its `repr`. -/
inductive Payload
  | str (text : String)
  | scalar (repr : String)
  | dict (entries : List (PyKey × Payload))
  | collection (kind : Collection) (items : List Payload)
  deriving Repr

namespace Payload

/-- A dict whose keys are text. -/
def fields (entries : List (String × Payload)) : Payload :=
  .dict (entries.map fun entry => (.str entry.1, entry.2))

/-- `looks_like_secret_value(value)`. -/
def looksLikeSecretValue : Payload → Bool
  | .str text => Secrets.looksLikeSecretValue text
  | _ => false

/-! A scanner reads the keys and the values of dicts and enters collections of some
kinds. -/

mutual
def scan (enters : Collection → Bool) : Payload → Bool
  | .dict entries => scanEntries enters entries
  | .collection kind items => enters kind && scanItems enters items
  | .str text => Secrets.looksLikeSecretValue text
  | .scalar _ => false

def scanItems (enters : Collection → Bool) : List Payload → Bool
  | [] => false
  | item :: rest => scan enters item || scanItems enters rest

def scanEntries (enters : Collection → Bool) : List (PyKey × Payload) → Bool
  | [] => false
  | (key, value) :: rest =>
      Secrets.looksSecret key.text || scan enters value || scanEntries enters rest
end

/-- A secret-named key or a credential-shaped text occurs in the value, and only
collections of some kinds lie around it. -/
inductive HoldsWithin (enters : Collection → Bool) : Payload → Prop
  | text {text : String} (shaped : Secrets.looksLikeSecretValue text = true) :
      HoldsWithin enters (.str text)
  | key {entries : List (PyKey × Payload)} {entry : PyKey × Payload}
      (member : entry ∈ entries) (named : Secrets.looksSecret entry.1.text = true) :
      HoldsWithin enters (.dict entries)
  | value {entries : List (PyKey × Payload)} {entry : PyKey × Payload}
      (member : entry ∈ entries) (holds : HoldsWithin enters entry.2) :
      HoldsWithin enters (.dict entries)
  | item {kind : Collection} {items : List Payload} {item : Payload}
      (entered : enters kind = true) (member : item ∈ items)
      (holds : HoldsWithin enters item) : HoldsWithin enters (.collection kind items)

/-- A secret occurs anywhere in the value. -/
def HoldsSecret (payload : Payload) : Prop := payload.HoldsWithin fun _ => true

/-- A secret occurs outside all tuples and sets of the value. -/
def HoldsInLists (payload : Payload) : Prop := payload.HoldsWithin (· = .list)

/-- Entering more collections finds no less. -/
theorem HoldsWithin.mono {payload : Payload} {enters wider : Collection → Bool}
    (widens : ∀ kind, enters kind = true → wider kind = true)
    (holds : payload.HoldsWithin enters) : payload.HoldsWithin wider := by
  induction holds with
  | text shaped => exact .text shaped
  | key member named => exact .key member named
  | value member _ induction => exact .value member induction
  | item entered member _ induction => exact .item (widens _ entered) member induction

/-! A scanner finds exactly the secrets that lie within the collections it enters. -/

mutual
private theorem holds_of_scan {enters : Collection → Bool} :
    (payload : Payload) → payload.scan enters = true → payload.HoldsWithin enters
  | .str text, found => .text (by simpa [scan] using found)
  | .scalar _, found => by simp [scan] at found
  | .dict entries, found => by
      rw [scan] at found
      rcases holds_of_scanEntries entries found with ⟨entry, member, named | holds⟩
      · exact .key member named
      · exact .value member holds
  | .collection kind items, found => by
      rw [scan, Bool.and_eq_true] at found
      rcases holds_of_scanItems items found.2 with ⟨item, member, holds⟩
      exact .item found.1 member holds

private theorem holds_of_scanItems {enters : Collection → Bool} :
    (items : List Payload) → scanItems enters items = true →
      ∃ item ∈ items, HoldsWithin enters item
  | [], found => by simp [scanItems] at found
  | item :: rest, found => by
      rw [scanItems, Bool.or_eq_true] at found
      rcases found with here | later
      · exact ⟨item, List.mem_cons_self, holds_of_scan item here⟩
      · rcases holds_of_scanItems rest later with ⟨other, member, holds⟩
        exact ⟨other, List.mem_cons_of_mem _ member, holds⟩

private theorem holds_of_scanEntries {enters : Collection → Bool} :
    (entries : List (PyKey × Payload)) → scanEntries enters entries = true →
      ∃ entry ∈ entries,
        Secrets.looksSecret entry.1.text = true ∨ HoldsWithin enters entry.2
  | [], found => by simp [scanEntries] at found
  | (key, value) :: rest, found => by
      rw [scanEntries, Bool.or_eq_true, Bool.or_eq_true] at found
      rcases found with (named | here) | later
      · exact ⟨(key, value), List.mem_cons_self, .inl named⟩
      · exact ⟨(key, value), List.mem_cons_self, .inr (holds_of_scan value here)⟩
      · rcases holds_of_scanEntries rest later with ⟨other, member, holds⟩
        exact ⟨other, List.mem_cons_of_mem _ member, holds⟩
end

theorem scanItems_eq_any (enters : Collection → Bool) (items : List Payload) :
    scanItems enters items = items.any (scan enters) := by
  induction items with
  | nil => rfl
  | cons item rest induction => rw [scanItems, List.any_cons, induction]

theorem scanEntries_eq_any (enters : Collection → Bool) (entries : List (PyKey × Payload)) :
    scanEntries enters entries =
      entries.any fun entry => Secrets.looksSecret entry.1.text || scan enters entry.2 := by
  induction entries with
  | nil => rfl
  | cons entry rest induction => rw [scanEntries, List.any_cons, induction]

theorem scan_iff {enters : Collection → Bool} {payload : Payload} :
    payload.scan enters = true ↔ payload.HoldsWithin enters := by
  constructor
  · exact holds_of_scan payload
  · intro holds
    induction holds with
    | text shaped => rw [scan, shaped]
    | key member named =>
        rw [scan, scanEntries_eq_any]
        exact List.any_eq_true.mpr ⟨_, member, by rw [named, Bool.true_or]⟩
    | value member _ induction =>
        rw [scan, scanEntries_eq_any]
        exact List.any_eq_true.mpr ⟨_, member, by rw [induction, Bool.or_true]⟩
    | item entered member _ induction =>
        rw [scan, entered, Bool.true_and, scanItems_eq_any]
        exact List.any_eq_true.mpr ⟨_, member, induction⟩

end Payload

end Raphael.Core
