import Mathlib.Data.List.Sort
import Raphael.Core.Errors

/-! # Snapshot tables

The id and snapshot store behind the entity repositories. A row is the snapshot
itself: its id and `updated_at` columns are those of the item, as every write
sets them. Times are microseconds of UTC. -/

namespace Raphael.Persistence

open Core

/-- What every stored object has. -/
class Entity (Item : Type u) where
  id : Item → String
  updatedAt : Item → Int
  /-- Refresh `updated_at` to the given reading of the clock. -/
  touch : Int → Item → Item
  id_touch : ∀ now item, id (touch now item) = id item

attribute [simp] Entity.id_touch

/-- `sorted(items, key=key)`: equal keys stay in their order. -/
def sortBy (key : Item → Int) (items : List Item) : List Item :=
  items.insertionSort fun left right => key left ≤ key right

/-- The rows in the order of their insertion; the ids are a primary key. -/
structure SnapshotTable (Item : Type u) [Entity Item] where
  name : String
  rows : List Item
  distinct : (rows.map Entity.id).Nodup

namespace SnapshotTable

variable {Item : Type u} [Entity Item]

def empty (name : String) : SnapshotTable Item := ⟨name, [], .nil⟩

/-- `SELECT snapshot WHERE id = ?`. -/
def get (table : SnapshotTable Item) (itemId : String) : Option Item :=
  table.rows.find? (Entity.id · == itemId)

/-- `SELECT snapshot ORDER BY updated_at`. -/
def list (table : SnapshotTable Item) : List Item := sortBy Entity.updatedAt table.rows

/-- `DELETE WHERE id = ?`. -/
def delete (table : SnapshotTable Item) (itemId : String) : SnapshotTable Item where
  name := table.name
  rows := table.rows.filter (Entity.id · != itemId)
  distinct := table.distinct.sublist (List.filter_sublist.map Entity.id)

private theorem ids_replace (rows : List Item) (item : Item) :
    (rows.map fun row => if Entity.id row == Entity.id item then item else row).map
        Entity.id = rows.map Entity.id := by
  rw [List.map_map]
  apply List.map_congr_left
  intro row _
  by_cases same : Entity.id row = Entity.id item <;> simp [same]

/-- A row in the place of the one with its id. -/
def replace (table : SnapshotTable Item) (item : Item) : SnapshotTable Item where
  name := table.name
  rows := table.rows.map fun row => if Entity.id row == Entity.id item then item else row
  distinct := by
    rw [ids_replace]
    exact table.distinct

/-- A row behind the others, under an id that none of them has. -/
def append (table : SnapshotTable Item) (item : Item)
    (unused : table.get (Entity.id item) = none) : SnapshotTable Item where
  name := table.name
  rows := table.rows ++ [item]
  distinct := by
    rw [List.map_append, List.nodup_append]
    refine ⟨table.distinct, List.nodup_singleton _, ?_⟩
    rintro _ held _ new rfl
    rcases List.mem_map.mp held with ⟨row, present, same⟩
    rw [List.map_singleton, List.mem_singleton] at new
    exact List.find?_eq_none.mp unused row present (beq_iff_eq.mpr (same.trans new))

/-- The item is touched first; a second row under its id is refused. -/
def create (table : SnapshotTable Item) (now : Int) (item : Item) :
    Except Error (SnapshotTable Item × Item) :=
  let item := Entity.touch now item
  match unused : table.get (Entity.id item) with
  | none => .ok (table.append item unused, item)
  | some _ => .error (.other
      ("database error: UNIQUE constraint failed: " ++ table.name ++ ".id"))

/-- The item is touched first; where there is no row under its id, one is made. -/
def update (table : SnapshotTable Item) (now : Int) (item : Item) :
    SnapshotTable Item × Item :=
  let item := Entity.touch now item
  match unused : table.get (Entity.id item) with
  | some _ => (table.replace item, item)
  | none => (table.append item unused, item)

/-! ## Reading a table back -/

variable {table : SnapshotTable Item} {item : Item} {itemId : String} {now : Int}

theorem get_eq_some_iff :
    table.get itemId = some item ↔ item ∈ table.rows ∧ Entity.id item = itemId := by
  constructor
  · intro found
    exact ⟨List.mem_of_find?_eq_some found, by simpa using List.find?_some found⟩
  · rintro ⟨present, rfl⟩
    cases found : table.get (Entity.id item) with
    | none =>
        have differs := List.find?_eq_none.mp found item present
        simp at differs
    | some other =>
        have same : Entity.id other = Entity.id item := by simpa using List.find?_some found
        exact congrArg some (List.inj_on_of_nodup_map table.distinct
          (List.mem_of_find?_eq_some found) present same)

theorem id_of_get (found : table.get itemId = some item) : Entity.id item = itemId :=
  (get_eq_some_iff.mp found).2

theorem list_perm (table : SnapshotTable Item) : table.list.Perm table.rows :=
  List.perm_insertionSort _ _

@[simp] theorem mem_list : item ∈ table.list ↔ item ∈ table.rows :=
  (list_perm table).mem_iff

@[simp] theorem get_empty (name : String) : (empty name : SnapshotTable Item).get itemId = none :=
  rfl

theorem get_append (unused : table.get (Entity.id item) = none) (other : String) :
    (table.append item unused).get other =
      if other = Entity.id item then some item else table.get other := by
  simp only [get, append, List.find?_append] at unused ⊢
  by_cases same : other = Entity.id item
  · subst same
    simp [unused]
  · have differs : (Entity.id item == other) = false := by simpa using Ne.symm same
    simp [same, differs]

private theorem find?_replace (rows : List Item) (item : Item) (other : String) :
    (rows.map fun row => if Entity.id row == Entity.id item then item else row).find?
        (Entity.id · == other) =
      (rows.find? (Entity.id · == other)).map fun row =>
        if Entity.id row == Entity.id item then item else row := by
  rw [List.find?_map]
  congr 2
  funext row
  by_cases same : Entity.id row = Entity.id item <;> simp [same]

theorem get_replace {held : Item} (present : table.get (Entity.id item) = some held)
    (other : String) :
    (table.replace item).get other =
      if other = Entity.id item then some item else table.get other := by
  simp only [get, replace, find?_replace]
  by_cases same : other = Entity.id item
  · subst same
    have heldId := id_of_get present
    simp only [get] at present
    simp [present, heldId]
  · cases found : table.rows.find? (Entity.id · == other) with
    | none => simp [same]
    | some row =>
        have rowId : Entity.id row = other := by simpa using List.find?_some found
        simp [same, rowId]

/-- An update writes the touched item under its id and leaves the other rows. -/
theorem get_update (table : SnapshotTable Item) (now : Int) (item : Item) (other : String) :
    (table.update now item).1.get other =
      if other = Entity.id item then some (Entity.touch now item) else table.get other := by
  unfold update
  dsimp only
  split
  · next held present => simpa using get_replace present other
  · next unused => simpa using get_append unused other

@[simp] theorem update_snd (table : SnapshotTable Item) (now : Int) (item : Item) :
    (table.update now item).2 = Entity.touch now item := by
  unfold update
  dsimp only
  split <;> rfl

/-- A successful `create` adds the touched item and leaves the other rows. -/
theorem get_create {next : SnapshotTable Item} {created : Item}
    (written : table.create now item = .ok (next, created)) (other : String) :
    next.get other = if other = Entity.id item then some created else table.get other := by
  unfold create at written
  dsimp only at written
  split at written
  · next unused =>
      simp only [Except.ok.injEq, Prod.mk.injEq] at written
      rcases written with ⟨rfl, rfl⟩
      simpa using get_append unused other
  · cases written

/-- What a successful `create` does. -/
theorem create_eq_ok {next : SnapshotTable Item} {created : Item}
    (written : table.create now item = .ok (next, created)) :
    created = Entity.touch now item ∧ next.rows = table.rows ++ [created] ∧
      table.get (Entity.id item) = none := by
  unfold create at written
  dsimp only at written
  split at written
  · next unused =>
      simp only [Except.ok.injEq, Prod.mk.injEq] at written
      rcases written with ⟨rfl, rfl⟩
      exact ⟨rfl, rfl, by simpa using unused⟩
  · cases written

/-- An item is created exactly under an id that no row has. -/
theorem create_ok_iff : (∃ created, table.create now item = .ok created) ↔
    table.get (Entity.id item) = none := by
  constructor
  · rintro ⟨⟨next, created⟩, written⟩
    exact (create_eq_ok written).2.2
  · intro unused
    unfold create
    dsimp only
    split
    · exact ⟨_, rfl⟩
    · next held used =>
        rw [Entity.id_touch, unused] at used
        cases used

/-- An update of a stored item leaves the ids and their order. -/
theorem ids_update {held : Item} (present : table.get (Entity.id item) = some held) :
    (table.update now item).1.rows.map Entity.id = table.rows.map Entity.id := by
  unfold update
  dsimp only
  split
  · exact ids_replace table.rows (Entity.touch now item)
  · next unused =>
      rw [Entity.id_touch, present] at unused
      cases unused

theorem mem_ids : itemId ∈ table.rows.map Entity.id ↔ ∃ item, table.get itemId = some item := by
  constructor
  · intro member
    rcases List.mem_map.mp member with ⟨item, present, same⟩
    exact ⟨item, get_eq_some_iff.mpr ⟨present, same⟩⟩
  · intro ⟨item, found⟩
    exact List.mem_map.mpr ⟨item, get_eq_some_iff.mp found⟩

/-! ## The order of the writes

Over its calls a table is the log of what was written last, the oldest first. -/

inductive Call (Item : Type u)
  | create (item : Item)
  | update (item : Item)
  | delete (itemId : String)

/-- What a call at an instant leaves of a table. A refused one leaves all of it. -/
def apply (table : SnapshotTable Item) : Int × Call Item → SnapshotTable Item
  | (now, .create item) =>
      match table.create now item with
      | .ok (next, _) => next
      | .error _ => table
  | (now, .update item) => (table.update now item).1
  | (_, .delete itemId) => table.delete itemId

/-- What the same call leaves of a log. -/
def record (log : List Item) : Int × Call Item → List Item
  | (now, .create item) =>
      if Entity.id item ∈ log.map Entity.id then log else log ++ [Entity.touch now item]
  | (now, .update item) =>
      log.filter (Entity.id · != Entity.id item) ++ [Entity.touch now item]
  | (_, .delete itemId) => log.filter (Entity.id · != itemId)

/-- The rows are those of the log, which is in the order of the times. -/
def Logged (table : SnapshotTable Item) (log : List Item) : Prop :=
  table.rows.Perm log ∧ log.Pairwise (Entity.updatedAt · < Entity.updatedAt ·)

variable {log : List Item}

theorem list_of_logged (logged : Logged table log) : table.list = log := by
  refine @List.Perm.eq_of_pairwise Item (fun left right =>
    Entity.updatedAt left ≤ Entity.updatedAt right) _ _ ?_ ?_ (logged.2.imp le_of_lt)
    ((list_perm table).trans logged.1)
  · intro left right inList inLog below above
    exact List.inj_on_of_nodup_map (f := Entity.updatedAt)
      (List.pairwise_map.mpr (logged.2.imp ne_of_lt))
      (logged.1.subset (mem_list.mp inList)) inLog (le_antisymm below above)
  · exact (List.pairwise_insertionSort ..)

theorem mem_update {row : Item} : row ∈ (table.update now item).1.rows ↔
    row = Entity.touch now item ∨ row ∈ table.rows ∧ Entity.id row ≠ Entity.id item := by
  have self : row ∈ (table.update now item).1.rows ↔
      (table.update now item).1.get (Entity.id row) = some row := by simp [get_eq_some_iff]
  rw [self, get_update]
  split
  · next same =>
      simp [same, eq_comm]
  · next other =>
      rw [get_eq_some_iff]
      have untouched : row ≠ Entity.touch now item := by
        rintro rfl
        simp at other
      simp [other, untouched]

/-- Later than all of the log, a call does to the table what it does to the log. -/
theorem Logged.apply (logged : Logged table log) {call : Int × Call Item}
    (clocked : ∀ now (item : Item), Entity.updatedAt (Entity.touch now item) = now)
    (later : ∀ row ∈ log, Entity.updatedAt row < call.1) :
    Logged (table.apply call) (record log call) := by
  have appended {kept : List Item} (now : Int) (item : Item) (sub : kept.Sublist log)
      (later : ∀ row ∈ log, Entity.updatedAt row < now) :
      (kept ++ [Entity.touch now item]).Pairwise (Entity.updatedAt · < Entity.updatedAt ·) := by
    refine List.pairwise_append.mpr ⟨logged.2.sublist sub, List.pairwise_singleton .., ?_⟩
    intro row member new isNew
    rw [List.mem_singleton.mp isNew, clocked]
    exact later row (sub.subset member)
  rcases call with ⟨now, item | item | itemId⟩
  · have held : table.get (Entity.id item) = none ↔ Entity.id item ∉ log.map Entity.id := by
      rw [← (logged.1.map Entity.id).mem_iff, mem_ids]
      simp [Option.eq_none_iff_forall_ne_some]
    unfold SnapshotTable.apply record
    dsimp only
    split
    · next next created written =>
        have ⟨isTouched, rows, unused⟩ := create_eq_ok written
        rw [if_neg (held.mp unused)]
        exact ⟨rows ▸ isTouched ▸ logged.1.append_right _,
          appended now item (List.Sublist.refl log) later⟩
    · next refused =>
        rw [if_pos (by_contra fun unlogged => ?_)]
        · exact logged
        · rcases create_ok_iff.mpr (held.mpr unlogged) with ⟨_, written⟩
          cases written.symm.trans refused
  · have ordered := appended now item (List.filter_sublist (p := (Entity.id · != Entity.id item)))
      later
    refine ⟨(List.perm_ext_iff_of_nodup (table.update now item).1.distinct.of_map
      (ordered.imp fun below same => (same ▸ below).ne rfl)).mpr fun row => ?_, ordered⟩
    simp [mem_update, logged.1.mem_iff, or_comm]
  · exact ⟨logged.1.filter _, logged.2.sublist List.filter_sublist⟩

theorem mem_record {call : Int × Call Item} {row : Item} (member : row ∈ record log call) :
    row ∈ log ∨ ∃ item, row = Entity.touch call.1 item := by
  rcases call with ⟨now, item | item | itemId⟩
  · dsimp only [record] at member
    split at member
    · exact .inl member
    · exact (List.mem_append.mp member).imp_right fun new => ⟨item, List.mem_singleton.mp new⟩
  · exact (List.mem_append.mp member).imp List.mem_of_mem_filter
      fun new => ⟨item, List.mem_singleton.mp new⟩
  · exact .inl (List.mem_of_mem_filter member)

/-- Whatever is created, updated and deleted at successive instants, accepted or refused, a
table lists the items that are left in the order of their last writes, and reads them by
their ids. -/
theorem list_after_calls (name : String) {calls : List (Int × Call Item)}
    (clocked : ∀ now (item : Item), Entity.updatedAt (Entity.touch now item) = now)
    (successive : calls.Pairwise (·.1 < ·.1)) :
    let table := calls.foldl SnapshotTable.apply (empty name)
    let log := calls.foldl record []
    table.list = log ∧
      ∀ itemId item, table.get itemId = some item ↔ item ∈ log ∧ Entity.id item = itemId := by
  suffices kept : ∀ (table : SnapshotTable Item) (log : List Item), Logged table log →
      (∀ row ∈ log, ∀ call ∈ calls, Entity.updatedAt row < call.1) →
        Logged (calls.foldl SnapshotTable.apply table) (calls.foldl record log) by
    have logged := kept (empty name) [] ⟨.nil, .nil⟩ nofun
    exact ⟨list_of_logged logged, fun itemId item => by rw [get_eq_some_iff, logged.1.mem_iff]⟩
  induction successive with
  | nil => exact fun _ _ logged _ => logged
  | @cons call rest after _ induction =>
      intro table log logged later
      refine induction _ _ (logged.apply clocked fun row member =>
        later row member call List.mem_cons_self) fun row member next isNext => ?_
      rcases mem_record member with held | ⟨item, rfl⟩
      · exact later row held next (List.mem_cons_of_mem call isNext)
      · exact (clocked call.1 item).trans_lt (after next isNext)

/-- An object with nothing else to it. -/
structure Stamped where
  id : String
  updatedAt : Int := 0
  deriving DecidableEq

instance : Entity Stamped where
  id := Stamped.id
  updatedAt := Stamped.updatedAt
  touch now item := { item with updatedAt := now }
  id_touch _ _ := rfl

theorem list_after_calls_stamped :
    ([(1, .create { id := "a" }), (2, .create { id := "b" }), (3, .update { id := "a" }),
      (4, .create { id := "b" })].foldl SnapshotTable.apply
        (empty "items" : SnapshotTable Stamped)).list = [⟨"b", 2⟩, ⟨"a", 3⟩] :=
  (list_after_calls "items" (fun _ _ => rfl) (by decide)).1.trans (by decide)

end SnapshotTable

end Raphael.Persistence
