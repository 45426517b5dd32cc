import Mathlib.Data.List.Sort
import Mathlib.Data.List.Dedup
import Raphael.Foundation.Dict

/-! # Grouping a list

Items are grouped under a key by one pass over them. A group keeps the order of its
items, and its representative is the first of them; another order of the list can make
any item of a group the first. -/

namespace Raphael.Foundation

variable {Key : Type u} {Item : Type v} [DecidableEq Key]

namespace Dict

/-- Write a value under a key that has none. -/
def setDefault (dict : Dict Key Item) (key : Key) (value : Item) : Dict Key Item :=
  if (dict.get key).isSome then dict else dict.set key value

theorem get_setDefault (dict : Dict Key Item) (key : Key) (value : Item) (other : Key) :
    (dict.setDefault key value).get other =
      (dict.get other).or (if other = key then some value else none) := by
  rw [setDefault]
  split
  · next present =>
      split
      · next same =>
          subst same
          rw [Option.or_of_isSome present]
      · rw [Option.or_none]
  · next absent =>
      rw [get_set]
      split
      · next same =>
          subst same
          rw [Option.not_isSome_iff_eq_none.mp absent, Option.none_or]
      · rw [Option.or_none]

end Dict

/-- The items of each key, in the order of the list. -/
def groupBy (key : Item → Key) (items : List Item) : Dict Key (List Item) :=
  items.foldl (fun groups item =>
    groups.set (key item) ((groups.get (key item)).getD [] ++ [item])) Dict.empty

/-- The first item of each key. -/
def firstBy (key : Item → Key) (items : List Item) : Dict Key Item :=
  items.foldl (fun firsts item => firsts.setDefault (key item) item) Dict.empty

variable {key : Item → Key}

private theorem get_foldl_group (items : List Item) (groups : Dict Key (List Item)) (name : Key) :
    (items.foldl (fun groups item =>
        groups.set (key item) ((groups.get (key item)).getD [] ++ [item])) groups).get name =
      if items.filter (fun item => key item = name) = [] then groups.get name
      else some ((groups.get name).getD [] ++ items.filter fun item => key item = name) := by
  induction items generalizing groups with
  | nil => simp
  | cons item rest induction =>
      rw [List.foldl_cons, induction, Dict.get_set]
      by_cases same : key item = name
      · subst same
        simp
      · simp [same, Ne.symm same]

/-- The group of a key. -/
theorem get_groupBy (items : List Item) (name : Key) :
    (groupBy key items).get name =
      if items.filter (fun item => key item = name) = [] then none
      else some (items.filter fun item => key item = name) := by
  rw [groupBy, get_foldl_group]
  simp

private theorem get_foldl_first (items : List Item) (firsts : Dict Key Item) (name : Key) :
    (items.foldl (fun firsts item => firsts.setDefault (key item) item) firsts).get name =
      (firsts.get name).or (items.find? fun item => key item = name) := by
  induction items generalizing firsts with
  | nil => simp
  | cons item rest induction =>
      rw [List.foldl_cons, induction, Dict.get_setDefault, Option.or_assoc, List.find?_cons]
      by_cases same : key item = name
      · simp [same]
      · simp [same, Ne.symm same]

/-- The representative of a key. -/
theorem get_firstBy (items : List Item) (name : Key) :
    (firstBy key items).get name = items.find? fun item => key item = name := by
  rw [firstBy, get_foldl_first, Dict.get_empty, Option.none_or]

theorem mem_keys_firstBy {items : List Item} {name : Key} :
    name ∈ (firstBy key items).entries.map Prod.fst ↔ ∃ item ∈ items, key item = name := by
  rw [← Dict.get_isSome, get_firstBy, List.find?_isSome]
  simp

theorem mem_values_firstBy {items : List Item} {item : Item} :
    item ∈ (firstBy key items).entries.map Prod.snd ↔
      items.find? (fun other => key other = key item) = some item := by
  constructor
  · intro member
    rcases List.mem_map.mp member with ⟨⟨name, value⟩, stored, rfl⟩
    have first := (get_firstBy items name).symm.trans (Dict.get_of_mem stored)
    have named : key value = name := by simpa using List.find?_some first
    exact named ▸ first
  · intro first
    have found := (get_firstBy items (key item)).trans first
    exact List.mem_map_of_mem (Dict.get_eq_some_iff.mp found)

/-! ## Another order -/

/-- The list with the preferred items in front. -/
def preferring (preferred : Item → Bool) (items : List Item) : List Item :=
  items.filter preferred ++ items.filter fun item => !preferred item

theorem preferring_perm (preferred : Item → Bool) (items : List Item) :
    (preferring preferred items).Perm items :=
  List.filter_append_perm preferred items

/-- A group with a preferred item is represented by one. -/
theorem find_preferring {preferred : Item → Bool} {items : List Item} {name : Key}
    (present : ∃ item ∈ items, preferred item ∧ key item = name) :
    ∃ item ∈ items, preferred item ∧ key item = name ∧
      (preferring preferred items).find? (fun item => key item = name) = some item := by
  have found : ((items.filter preferred).find? fun item => key item = name).isSome := by
    rw [List.find?_isSome]
    rcases present with ⟨item, member, chosen, named⟩
    exact ⟨item, List.mem_filter.mpr ⟨member, chosen⟩, decide_eq_true named⟩
  rcases Option.isSome_iff_exists.mp found with ⟨item, first⟩
  rcases List.mem_filter.mp (List.mem_of_find?_eq_some first) with ⟨member, chosen⟩
  have named : key item = name := by simpa using List.find?_some first
  refine ⟨item, member, chosen, named, ?_⟩
  rw [preferring, List.find?_append, first, Option.some_or]

/-- The group of a key is reordered as the list is. -/
theorem filter_preferring (preferred keep : Item → Bool) (items : List Item) :
    (preferring preferred items).filter keep = preferring preferred (items.filter keep) := by
  rw [preferring, preferring, List.filter_append, List.filter_filter, List.filter_filter,
    List.filter_filter, List.filter_filter]
  congr 2 <;> funext item <;> exact Bool.and_comm _ _

/-! ## Sorted sets -/

section Sorted

variable {Value : Type v} [LinearOrder Value]

/-- The values of a list in order. -/
def sorted (values : List Value) : List Value :=
  values.insertionSort fun left right => left ≤ right

/-- The values of a list, each once and in order. -/
def sortedSet (values : List Value) : List Value := sorted values.dedup

theorem sorted_of_nodup {values : List Value} (distinct : values.Nodup) :
    sorted values = sortedSet values := by
  rw [sortedSet, distinct.dedup]

theorem mem_sortedSet {values : List Value} {value : Value} :
    value ∈ sortedSet values ↔ value ∈ values := by
  rw [sortedSet, sorted, List.mem_insertionSort, List.mem_dedup]

theorem nodup_sortedSet (values : List Value) : (sortedSet values).Nodup :=
  (List.perm_insertionSort _ _).nodup_iff.mpr (List.nodup_dedup values)

/-- Lists with the same values have the same sorted set. -/
theorem sortedSet_congr {left right : List Value}
    (same : ∀ value, value ∈ left ↔ value ∈ right) : sortedSet left = sortedSet right := by
  have perm : (sortedSet left).Perm (sortedSet right) := by
    rw [List.perm_ext_iff_of_nodup (nodup_sortedSet left) (nodup_sortedSet right)]
    intro value
    rw [mem_sortedSet, mem_sortedSet, same]
  exact perm.eq_of_pairwise' (List.pairwise_insertionSort _ _) (List.pairwise_insertionSort _ _)

/-- A sorted set has two values as soon as two differ. -/
theorem two_le_length_sortedSet {values : List Value} :
    2 ≤ (sortedSet values).length ↔ ∃ left ∈ values, ∃ right ∈ values, left ≠ right := by
  constructor
  · intro long
    match shape : sortedSet values with
    | [] => simp [shape] at long
    | [_] => simp [shape] at long
    | left :: right :: rest =>
        have distinct := nodup_sortedSet values
        rw [shape] at distinct
        refine ⟨left, ?_, right, ?_, ?_⟩
        · rw [← mem_sortedSet, shape]
          exact List.mem_cons_self
        · rw [← mem_sortedSet, shape]
          exact List.mem_cons_of_mem left List.mem_cons_self
        · rintro rfl
          exact (List.nodup_cons.mp distinct).1 List.mem_cons_self
  · rintro ⟨left, first, right, second, differ⟩
    match shape : sortedSet values with
    | [] =>
        rw [← mem_sortedSet, shape] at first
        cases first
    | [only] =>
        rw [← mem_sortedSet, shape, List.mem_singleton] at first second
        exact absurd (first.trans second.symm) differ
    | _ :: _ :: _ =>
        simp

end Sorted

end Raphael.Foundation
