import Mathlib.Order.Lattice.Nat
import Raphael.Security.ArgumentScan

/-! # The level of an assessment

Every part of an assessment raises the level by an amount of its own, so that the level
depends neither on the order of the capabilities nor on that of the arguments, and more of
either never lowers it. -/

namespace Raphael.Security

open Core Foundation

/-- How high the level of the findings is. -/
def Findings.rank (findings : Findings) : Nat := levelOrder findings.level

namespace Findings

theorem rank_escalate (findings : Findings) (target : RiskLevel) (factor : String) :
    (findings.escalate target factor).rank = findings.rank ⊔ levelOrder target := by
  unfold rank escalate
  dsimp only
  split <;> omega

theorem raises_note (factor : String) : Raises rank (fun findings => findings.note factor) ⊥ :=
  .of_same fun _ => rfl

theorem raises_escalate (target : RiskLevel) (factor : String) :
    Raises rank (fun findings => findings.escalate target factor) (levelOrder target) :=
  fun findings => rank_escalate findings target factor

theorem raises_escalateIf (condition : Bool) (target : RiskLevel) (factor : String) :
    Raises rank (fun findings => findings.escalateIf condition target factor)
      (if condition then levelOrder target else ⊥) :=
  (raises_escalate target factor).ite

end Findings

namespace ArgumentScan

open Findings (rank)

variable (platform : Platform) (engine : RiskEngine) (tool : Tool) (context : RiskContext)

/-! ## The arguments -/

theorem raises_scanString (value key : String) (literalArgv : Bool) : ∃ amount,
      Raises rank (RiskEngine.scanString platform tool context value key literalArgv) amount := by
  unfold RiskEngine.scanString
  split
  · exact ⟨_, .id⟩
  · split
    · exact ⟨_, Findings.raises_escalate _ _⟩
    · dsimp only
      split
      · split
        · exact ⟨_, (Findings.raises_escalateIf _ _ _).comp (Findings.raises_note _)⟩
        · exact ⟨_, (Findings.raises_escalateIf _ _ _).comp (Findings.raises_escalate _ _)⟩
      · exact ⟨_, Findings.raises_escalateIf _ _ _⟩

/-- What the loop over a list does with one item. -/
def scanItem (key : String) (index : Nat) (found : Findings) : Payload → Findings
  | .str text =>
      RiskEngine.scanString platform tool context text (key ++ "[" ++ toString index ++ "]")
        (RiskEngine.isLiteralArgv tool key) found
  | item => scanValue platform tool context (key ++ "[" ++ toString index ++ "]") found item

theorem scanItems_cons (key : String) (index : Nat) (found : Findings) (item : Payload)
    (rest : List Payload) :
    scanItems platform tool context key found index (item :: rest) =
      scanItems platform tool context key
        (scanItem platform tool context key index found item) (index + 1) rest := by
  cases item <;> simp only [scanItems, scanItem]

/-! The scan reads the name of the tool and nothing else of it. -/

section Name

variable {tool}

theorem scanString_congr {other : Tool} (named : tool.name = other.name) (value key : String)
    (literalArgv : Bool) (found : Findings) :
    RiskEngine.scanString platform tool context value key literalArgv found =
      RiskEngine.scanString platform other context value key literalArgv found := by
  unfold RiskEngine.scanString
  rw [named]

theorem isLiteralArgv_congr {other : Tool} (named : tool.name = other.name) (key : String) :
    RiskEngine.isLiteralArgv tool key = RiskEngine.isLiteralArgv other key := by
  unfold RiskEngine.isLiteralArgv
  rw [named]

mutual
theorem scanValue_congr {other : Tool} (named : tool.name = other.name) :
    (value : Payload) → (key : String) → (found : Findings) →
    scanValue platform tool context key found value =
      scanValue platform other context key found value
  | .str text, key, found => by
      simp only [scanValue]
      rw [isLiteralArgv_congr named, scanString_congr platform context named]
  | .scalar _, _, _ => by simp only [scanValue]
  | .dict entries, key, found => by
      simp only [scanValue]
      exact scanEntries_congr named entries _ found
  | .collection .list items, key, found => by
      simp only [scanValue]
      exact scanItems_congr named items key 0 found
  | .collection .tuple items, key, found => by
      simp only [scanValue]
      exact scanItems_congr named items key 0 found
  | .collection .set _, _, _ => by simp only [scanValue]
  | .collection .frozenset _, _, _ => by simp only [scanValue]

theorem scanItems_congr {other : Tool} (named : tool.name = other.name) :
    (items : List Payload) → (key : String) → (index : Nat) → (found : Findings) →
    scanItems platform tool context key found index items =
      scanItems platform other context key found index items
  | [], _, _, _ => by simp only [scanItems]
  | item :: rest, key, index, found => by
      have value := scanValue_congr named item (key ++ "[" ++ toString index ++ "]") found
      have here : scanItem platform tool context key index found item =
          scanItem platform other context key index found item := by
        cases item with
        | str text =>
            simp only [scanItem]
            rw [isLiteralArgv_congr named, scanString_congr platform context named]
        | scalar _ | dict _ | collection _ _ => exact value
      rw [scanItems_cons, scanItems_cons, here]
      exact scanItems_congr named rest key (index + 1) _

theorem scanEntries_congr {other : Tool} (named : tool.name = other.name) :
    (entries : List (PyKey × Payload)) → (path : String) → (found : Findings) →
    scanEntries platform tool context path found entries =
      scanEntries platform other context path found entries
  | [], _, _ => by simp only [scanEntries]
  | (key, value) :: rest, path, found => by
      simp only [scanEntries]
      rw [scanValue_congr named value]
      exact scanEntries_congr named rest path _
end

end Name

/-! Every scan raises the level by an amount of its own. -/

mutual
theorem raises_scanValue : (value : Payload) → (key : String) → ∃ amount,
    Raises rank (fun found => scanValue platform tool context key found value) amount
  | .str text, key => by
      simp only [scanValue]
      exact raises_scanString platform tool context text key _
  | .scalar _, _ => by
      simp only [scanValue]
      exact ⟨_, .id⟩
  | .dict entries, key => by
      simp only [scanValue]
      exact raises_scanEntries entries (key ++ ".")
  | .collection .list items, key => by
      simp only [scanValue]
      exact raises_scanItems items key 0
  | .collection .tuple items, key => by
      simp only [scanValue]
      exact raises_scanItems items key 0
  | .collection .set _, _ => by
      simp only [scanValue]
      exact ⟨_, .id⟩
  | .collection .frozenset _, _ => by
      simp only [scanValue]
      exact ⟨_, .id⟩

theorem raises_scanItems : (items : List Payload) → (key : String) → (index : Nat) →
    ∃ amount,
      Raises rank (fun found => scanItems platform tool context key found index items) amount
  | [], _, _ => by
      simp only [scanItems]
      exact ⟨_, .id⟩
  | item :: rest, key, index => by
      have value := raises_scanValue item (key ++ "[" ++ toString index ++ "]")
      have here : ∃ amount,
          Raises rank (fun found => scanItem platform tool context key index found item)
            amount := by
        cases item with
        | str text => exact raises_scanString platform tool context text _ _
        | scalar _ | dict _ | collection _ _ => exact value
      rcases here with ⟨_, here⟩
      rcases raises_scanItems rest key (index + 1) with ⟨_, later⟩
      simp only [scanItems_cons]
      exact ⟨_, here.comp later⟩

theorem raises_scanEntries : (entries : List (PyKey × Payload)) → (path : String) →
    ∃ amount,
      Raises rank (fun found => scanEntries platform tool context path found entries) amount
  | [], _ => by
      simp only [scanEntries]
      exact ⟨_, .id⟩
  | (key, value) :: rest, path => by
      simp only [scanEntries]
      rcases raises_scanValue value (path ++ key.text) with ⟨_, here⟩
      rcases raises_scanEntries rest path with ⟨_, later⟩
      exact ⟨_, here.comp later⟩
end

variable {call more : ScannedCall}

/-- Every argument of the first call is one of the second. -/
def ScannedCall.Within (call more : ScannedCall) : Prop :=
  call.arguments.entries ⊆ more.arguments.entries

variable {capabilities others : List String}

/-- The text is a leaf of the value, at any depth of dicts, lists and tuples. -/
inductive TextWithin (text : String) : Payload → Prop
  | here : TextWithin text (.str text)
  | value {entries : List (PyKey × Payload)} {entry : PyKey × Payload}
      (member : entry ∈ entries) (inside : TextWithin text entry.2) :
      TextWithin text (.dict entries)
  | item {kind : Collection} (ordered : kind = .list ∨ kind = .tuple) {items : List Payload}
      {item : Payload} (member : item ∈ items) (inside : TextWithin text item) :
      TextWithin text (.collection kind items)

/-- The text of a reply, which is not scanned. -/
def Exempt (tool : Tool) (key : String) (value : Payload) (text : String) : Prop :=
  tool.name = "agent.respond" ∧ key = "text" ∧ value = .str text

/-- What an engine makes of every tool and call. -/
structure Sound (platform : Platform) (engine : RiskEngine) : Prop where
  declared : ∀ taskId tool call context,
    levelOrder tool.riskLevel ≤ levelOrder (assess platform engine taskId tool call context).level
  /-- Adding capabilities or arguments never lowers the level. -/
  monotone : ∀ taskId (tool : Tool) capabilities others call more context,
    capabilities ⊆ others → ScannedCall.Within call more →
      levelOrder (assess platform engine taskId { tool with capabilities } call context).level ≤
        levelOrder
          (assess platform engine taskId { tool with capabilities := others } more context).level
  /-- Neither the order of the capabilities nor that of the arguments matters. -/
  unordered : ∀ taskId (tool : Tool) capabilities others call same context,
    capabilities.Perm others → call.arguments.entries.Perm same.arguments.entries →
      (assess platform engine taskId { tool with capabilities } call context).level =
        (assess platform engine taskId { tool with capabilities := others } same context).level
  /-- A text that climbs makes the call critical, but for the text of a reply. -/
  climbing : ∀ taskId tool call context key value text,
    call.arguments.get key = some value → TextWithin text value →
      ".." ∈ Text.pathSegments text → ¬ Exempt tool key value text →
        (assess platform engine taskId tool call context).level = .critical

end ArgumentScan

end Raphael.Security
