import Mathlib.Data.List.Nodup

/-! # Dictionaries

A dictionary lists its entries in the order in which their keys were first
written, and holds each key once. -/

namespace Raphael.Foundation

structure Dict (Key : Type u) (Value : Type v) where
  entries : List (Key × Value)
  distinct : (entries.map Prod.fst).Nodup

namespace Dict

variable {Key : Type u} {Value : Type v} {Image : Type w}

def empty : Dict Key Value := ⟨[], by simp⟩

/-- The same keys with the images of their values. -/
def map (image : Value → Image) (dict : Dict Key Value) : Dict Key Image where
  entries := dict.entries.map fun entry => (entry.1, image entry.2)
  distinct := by simpa [Function.comp_def] using dict.distinct

/-- The entries that meet a condition. -/
def filter (keep : Key → Value → Bool) (dict : Dict Key Value) : Dict Key Value where
  entries := dict.entries.filter fun entry => keep entry.1 entry.2
  distinct := dict.distinct.sublist (List.filter_sublist.map Prod.fst)

variable [DecidableEq Key]

/-- The value under a key. -/
def get (dict : Dict Key Value) (key : Key) : Option Value :=
  (dict.entries.find? fun entry => entry.1 = key).map Prod.snd

private theorem fst_replace (key : Key) (value : Value) (entries : List (Key × Value)) :
    (entries.map fun entry => if entry.1 = key then (key, value) else entry).map Prod.fst =
      entries.map Prod.fst := by
  induction entries with
  | nil => rfl
  | cons entry rest induction =>
      simp only [List.map_cons, induction]
      split
      · next same => rw [same]
      · rfl

/-- Write a value under a key: in place, or behind the other entries. -/
def set (dict : Dict Key Value) (key : Key) (value : Value) : Dict Key Value where
  entries :=
    if key ∈ dict.entries.map Prod.fst then
      dict.entries.map fun entry => if entry.1 = key then (key, value) else entry
    else dict.entries ++ [(key, value)]
  distinct := by
    split
    · rw [fst_replace]
      exact dict.distinct
    · next absent =>
        rw [List.map_append]
        exact dict.distinct.append (List.nodup_singleton key) (by simpa using absent)

/-- The keys after a write: a new one is behind the others. -/
theorem keys_set (dict : Dict Key Value) (key : Key) (value : Value) :
    (dict.set key value).entries.map Prod.fst =
      if key ∈ dict.entries.map Prod.fst then dict.entries.map Prod.fst
      else dict.entries.map Prod.fst ++ [key] := by
  simp only [set]
  split
  · exact fst_replace key value dict.entries
  · rw [List.map_append]
    rfl

@[simp] theorem get_empty (key : Key) : (empty : Dict Key Value).get key = none := rfl

@[simp] theorem get_map (image : Value → Image) (dict : Dict Key Value) (key : Key) :
    (dict.map image).get key = (dict.get key).map image := by
  simp [get, map, List.find?_map, Function.comp_def]

theorem get_isSome {dict : Dict Key Value} {key : Key} :
    (dict.get key).isSome ↔ key ∈ dict.entries.map Prod.fst := by
  simp [get]

/-- An entry of the dictionary is found under its key. -/
theorem get_of_mem {dict : Dict Key Value} {key : Key} {value : Value}
    (present : (key, value) ∈ dict.entries) : dict.get key = some value := by
  have found : (dict.get key).isSome :=
    get_isSome.mpr (List.mem_map_of_mem present)
  rcases Option.isSome_iff_exists.mp found with ⟨held, same⟩
  rcases Option.map_eq_some_iff.mp same with ⟨⟨name, value'⟩, first, rfl⟩
  have isKey : name = key := by simpa using List.find?_some first
  have distinct := List.inj_on_of_nodup_map dict.distinct present
    (List.mem_of_find?_eq_some first) isKey.symm
  rw [same]
  cases distinct
  rfl

theorem get_eq_some_iff {dict : Dict Key Value} {key : Key} {value : Value} :
    dict.get key = some value ↔ (key, value) ∈ dict.entries := by
  constructor
  · intro found
    rcases Option.map_eq_some_iff.mp found with ⟨⟨name, held⟩, first, rfl⟩
    have same : name = key := by simpa using List.find?_some first
    exact same ▸ List.mem_of_find?_eq_some first
  · exact get_of_mem

private theorem find_replace (key : Key) (value : Value) (entries : List (Key × Value))
    (other : Key) (differs : other ≠ key) :
    (entries.map fun entry => if entry.1 = key then (key, value) else entry).find?
        (fun entry => entry.1 = other) =
      entries.find? fun entry => entry.1 = other := by
  induction entries with
  | nil => rfl
  | cons entry rest induction =>
      by_cases written : entry.1 = key
      · simp [written, differs.symm, induction]
      · simp [written, List.find?_cons, induction]

/-- A dictionary reads back what was written under a key. -/
theorem get_set (dict : Dict Key Value) (key : Key) (value : Value) (other : Key) :
    (dict.set key value).get other = if other = key then some value else dict.get other := by
  split
  · next same =>
      subst same
      apply get_of_mem
      simp only [set]
      split
      · next present =>
          rcases List.mem_map.mp present with ⟨entry, stored, same⟩
          exact List.mem_map.mpr ⟨entry, stored, if_pos same⟩
      · simp
  · next differs =>
      simp only [get, set]
      split
      · rw [find_replace key value _ other differs]
      · simp [List.find?_append, Ne.symm differs]

/-- Entries are written one behind the other. -/
def update (dict : Dict Key Value) (entries : List (Key × Value)) : Dict Key Value :=
  entries.foldl (fun dict entry => dict.set entry.1 entry.2) dict

/-- The value of the last entry under a key. -/
def lastValue (key : Key) : List (Key × Value) → Option Value
  | [] => none
  | entry :: rest =>
      (lastValue key rest).or (if key = entry.1 then some entry.2 else none)

theorem lastValue_mem {key : Key} {value : Value} {entries : List (Key × Value)}
    (found : lastValue key entries = some value) : (key, value) ∈ entries := by
  induction entries with
  | nil => cases found
  | cons entry rest induction =>
      rcases Option.or_eq_some_iff.mp found with later | ⟨_, first⟩
      · exact List.mem_cons_of_mem entry (induction later)
      · split at first <;> cases first
        next same =>
          subst same
          exact List.mem_cons_self

theorem lastValue_isSome {key : Key} {entries : List (Key × Value)} :
    (lastValue key entries).isSome ↔ key ∈ entries.map Prod.fst := by
  induction entries with
  | nil => simp [lastValue]
  | cons entry rest induction =>
      rw [lastValue, Option.isSome_or, Bool.or_eq_true, induction, List.map_cons, List.mem_cons]
      split
      · next same => simp [same]
      · next differs => simp [differs]

/-- Of what is written under a key, the last is read. -/
theorem get_update (dict : Dict Key Value) (entries : List (Key × Value)) (key : Key) :
    (dict.update entries).get key = (lastValue key entries).or (dict.get key) := by
  induction entries generalizing dict with
  | nil => rfl
  | cons entry rest induction =>
      refine (induction (dict.set entry.1 entry.2)).trans ?_
      rw [lastValue, get_set, Option.or_assoc]
      split <;> rfl

/-- Of entries with different keys, all are found afterwards. -/
theorem get_update_of_mem {dict : Dict Key Value} {entries : List (Key × Value)} {key : Key}
    {value : Value} (distinct : (entries.map Prod.fst).Nodup)
    (member : (key, value) ∈ entries) : (dict.update entries).get key = some value := by
  have found : (lastValue key entries).isSome :=
    lastValue_isSome.mpr (List.mem_map_of_mem member)
  rcases Option.isSome_iff_exists.mp found with ⟨last, isLast⟩
  cases List.inj_on_of_nodup_map distinct member (lastValue_mem isLast) rfl
  rw [get_update, isLast, Option.some_or]

/-- The dictionary without a key. -/
def erase (dict : Dict Key Value) (key : Key) : Dict Key Value :=
  dict.filter fun other _ => decide (other ≠ key)

theorem get_filter_eq_some {keep : Key → Value → Bool} {dict : Dict Key Value} {key : Key}
    {value : Value} :
    (dict.filter keep).get key = some value ↔ dict.get key = some value ∧ keep key value := by
  rw [get_eq_some_iff, get_eq_some_iff]
  exact List.mem_filter

theorem get_erase_eq_some {dict : Dict Key Value} {key other : Key} {value : Value} :
    (dict.erase key).get other = some value ↔ dict.get other = some value ∧ other ≠ key := by
  rw [erase, get_filter_eq_some, decide_eq_true_iff]

/-- Without the keys of a list, what is found is found under another key. -/
theorem get_foldl_erase_eq_some {dict : Dict Key Value} {keys : List Key} {other : Key}
    {value : Value} :
    (keys.foldl erase dict).get other = some value ↔
      dict.get other = some value ∧ other ∉ keys := by
  induction keys generalizing dict with
  | nil => simp
  | cons key rest induction =>
      rw [List.foldl_cons, induction, get_erase_eq_some, List.mem_cons, not_or, and_assoc]

end Dict

end Raphael.Foundation

/-! ## Thinned dictionaries

Of two dictionaries, one lacks some entries of the other, all of them lapsed. Writing,
filtering and erasing in both keeps it so. Keys that are not visible are not compared. -/

namespace Raphael.Foundation

variable {Key : Type u} {Value : Type v} [DecidableEq Key]

/-- The thin dictionary agrees with the full one but for lapsed entries. -/
structure Thinned (visible : Key → Prop) (lapsed : Key → Value → Prop)
    (full thin : Dict Key Value) : Prop where
  kept : ∀ key, visible key → ∀ value, thin.get key = some value → full.get key = some value
  gone : ∀ key, visible key → ∀ value, full.get key = some value → thin.get key = none →
    lapsed key value

namespace Thinned

variable {visible : Key → Prop} {lapsed : Key → Value → Prop} {full thin : Dict Key Value}

/-- Under a visible key both hold the same, or the thin one lacks a lapsed entry. -/
theorem same_or_lapsed (thinned : Thinned visible lapsed full thin) {key : Key}
    (isVisible : visible key) :
    thin.get key = full.get key ∨
      ∃ value, full.get key = some value ∧ thin.get key = none ∧ lapsed key value := by
  cases inThin : thin.get key with
  | some value => exact .inl (thinned.kept key isVisible value inThin).symm
  | none =>
      cases inFull : full.get key with
      | none => exact .inl rfl
      | some value =>
          exact .inr ⟨value, rfl, rfl, thinned.gone key isVisible value inFull inThin⟩

theorem set (thinned : Thinned visible lapsed full thin) (key : Key) (value : Value) :
    Thinned visible lapsed (full.set key value) (thin.set key value) := by
  constructor
  · intro other isVisible held found
    rw [Dict.get_set] at found ⊢
    split at found
    · next same =>
        rw [if_pos same]
        exact found
    · next differs =>
        rw [if_neg differs]
        exact thinned.kept other isVisible held found
  · intro other isVisible held found missing
    rw [Dict.get_set] at found missing
    split at missing
    · cases missing
    · next differs =>
        rw [if_neg differs] at found
        exact thinned.gone other isVisible held found missing

/-- A key that is not visible may be written in the thin one alone. -/
theorem set_hidden (thinned : Thinned visible lapsed full thin) {key : Key}
    (hidden : ¬ visible key) (value : Value) :
    Thinned visible lapsed full (thin.set key value) := by
  have untouched {other : Key} (isVisible : visible other) :
      (thin.set key value).get other = thin.get other := by
    rw [Dict.get_set, if_neg]
    rintro rfl
    exact hidden isVisible
  constructor
  · intro other isVisible held found
    rw [untouched isVisible] at found
    exact thinned.kept other isVisible held found
  · intro other isVisible held found missing
    rw [untouched isVisible] at missing
    exact thinned.gone other isVisible held found missing

theorem filter (thinned : Thinned visible lapsed full thin) (keep : Key → Value → Bool) :
    Thinned visible lapsed (full.filter keep) (thin.filter keep) := by
  constructor
  · intro key isVisible value found
    rcases Dict.get_filter_eq_some.mp found with ⟨held, keeps⟩
    exact Dict.get_filter_eq_some.mpr ⟨thinned.kept key isVisible value held, keeps⟩
  · intro key isVisible value found missing
    rcases Dict.get_filter_eq_some.mp found with ⟨held, keeps⟩
    rcases thinned.same_or_lapsed isVisible with same | ⟨other, inFull, -, isLapsed⟩
    · rw [held] at same
      rw [Dict.get_filter_eq_some.mpr ⟨same, keeps⟩] at missing
      cases missing
    · cases held.symm.trans inFull
      exact isLapsed

theorem erase (thinned : Thinned visible lapsed full thin) (key : Key) :
    Thinned visible lapsed (full.erase key) (thin.erase key) :=
  thinned.filter _

/-- A lapsed entry may be erased in the full one alone. -/
theorem erase_full (thinned : Thinned visible lapsed full thin) {key : Key}
    (missing : thin.get key = none) : Thinned visible lapsed (full.erase key) thin := by
  constructor
  · intro other isVisible value found
    rw [Dict.get_erase_eq_some]
    refine ⟨thinned.kept other isVisible value found, ?_⟩
    rintro rfl
    rw [missing] at found
    cases found
  · intro other isVisible value found
    exact thinned.gone other isVisible value (Dict.get_erase_eq_some.mp found).1

end Thinned

/-- What a filter drops, when all of it is lapsed. -/
theorem thinned_filter {visible : Key → Prop} {lapsed : Key → Value → Prop}
    {dict : Dict Key Value} {keep : Key → Value → Bool}
    (drops : ∀ key value, dict.get key = some value → keep key value = false →
      lapsed key value) : Thinned visible lapsed dict (dict.filter keep) := by
  constructor
  · intro key _ value found
    exact (Dict.get_filter_eq_some.mp found).1
  · intro key _ value found missing
    apply drops key value found
    by_contra keeps
    rw [Bool.not_eq_false] at keeps
    rw [Dict.get_filter_eq_some.mpr ⟨found, keeps⟩] at missing
    cases missing

end Raphael.Foundation
