import Mathlib.Data.List.Induction
import Mathlib.Data.List.Nodup
import Mathlib.Data.List.Perm.Subperm

/-! # Hash chains

Records that name the hash of the one before them. The chain is read off an
unordered list of records by looking up who names which hash, and it is whole
when the walk from the record that names the genesis meets every record. -/

namespace Raphael.Foundation

namespace HashChain

variable {Record : Type u} {Link : Type v}
variable (prev hash : Record → Link) (genesis : Link)

section Reading

/-! ## Reading a chain -/

variable [DecidableEq Link]

/-- The records that name a hash as the one before them. -/
def byPrev (records : List Record) (link : Link) : List Record :=
  records.filter fun record => prev record = link

/-- Two records name the same hash. -/
def forked (records : List Record) : Bool :=
  records.any fun record => 1 < (byPrev prev records (prev record)).length

/-- The number of records from one to the end of its chain. -/
def walk (records : List Record) : Nat → Record → Option Nat
  | 0, _ => none
  | turns + 1, current =>
      match (byPrev prev records (hash current)).head? with
      | none => some 1
      | some next => (walk records turns next).map (· + 1)

inductive Finding
  | whole
  | fork
  | heads
  | gap
  deriving DecidableEq, Repr

/-- What the walk finds; `none` when it has not ended in so many turns. -/
def inspect (turns : Nat) (records : List Record) : Option Finding :=
  if forked prev records then some .fork
  else if records.isEmpty then some .whole
  else
    match byPrev prev records genesis with
    | [head] =>
        (walk prev hash records turns head).map fun onChain =>
          if onChain = records.length then .whole else .gap
    | _ => some .heads

end Reading

/-! ## Chains -/

/-- Every record names the hash of the one before it, the first one the link. -/
def Linked : Link → List Record → Prop
  | _, [] => True
  | link, record :: rest => prev record = link ∧ Linked (hash record) rest

/-- The hash that the next record of the chain names. -/
def tip : Link → List Record → Link
  | link, [] => link
  | _, record :: rest => tip (hash record) rest

/-- No two records share a hash, and none has the genesis for its hash. -/
structure Separated (records : List Record) : Prop where
  injective : ∀ left ∈ records, ∀ right ∈ records, hash left = hash right → left = right
  fresh : ∀ record ∈ records, hash record ≠ genesis

variable {prev hash genesis} {records path : List Record} {link : Link}

theorem linked_append {front back : List Record} :
    Linked prev hash link (front ++ back) ↔
      Linked prev hash link front ∧ Linked prev hash (tip hash link front) back := by
  induction front generalizing link with
  | nil => simp [Linked, tip]
  | cons record rest induction => simp [Linked, tip, induction, and_assoc]

theorem tip_append {front back : List Record} :
    tip hash link (front ++ back) = tip hash (tip hash link front) back := by
  induction front generalizing link with
  | nil => rfl
  | cons record rest induction => exact induction

@[simp] theorem tip_concat (record : Record) :
    tip hash link (path ++ [record]) = hash record := by
  rw [tip_append]
  rfl

/-- The tip is where the chain began, or the hash of one of its records. -/
theorem tip_cases (link : Link) (path : List Record) :
    (path = [] ∧ tip hash link path = link) ∨
      ∃ record ∈ path, tip hash link path = hash record := by
  induction path using List.reverseRecOn with
  | nil => exact .inl ⟨rfl, rfl⟩
  | append_singleton front record _ => exact .inr ⟨record, by simp, tip_concat record⟩

theorem Separated.mono {others : List Record} (separated : Separated hash genesis records)
    (within : others ⊆ records) : Separated hash genesis others where
  injective left inLeft right inRight :=
    separated.injective left (within inLeft) right (within inRight)
  fresh record present := separated.fresh record (within present)

/-- A record of a chain names the hash of one before it, or the genesis. -/
theorem Linked.prev_mem {record : Record} (linked : Linked prev hash link path)
    (present : record ∈ path) :
    prev record = link ∨ ∃ before ∈ path, prev record = hash before := by
  induction path generalizing link with
  | nil => cases present
  | cons first rest induction =>
      rcases linked with ⟨names, linked⟩
      rcases List.mem_cons.mp present with same | later
      · exact .inl (same ▸ names)
      · rcases induction linked later with names | ⟨before, held, names⟩
        · exact .inr ⟨first, List.mem_cons_self, names⟩
        · exact .inr ⟨before, List.mem_cons_of_mem _ held, names⟩

/-- A chain never comes back to a record: its tip is not named within it. -/
theorem Linked.tip_fresh (linked : Linked prev hash genesis path)
    (separated : Separated hash genesis path) (distinct : path.Nodup) :
    ∀ record ∈ path, prev record ≠ tip hash genesis path := by
  induction path using List.reverseRecOn with
  | nil => simp
  | append_singleton front last induction =>
      have frontSeparated := separated.mono (List.subset_append_left front [last])
      rcases linked_append.mp linked with ⟨frontLinked, names, _⟩
      rcases List.nodup_append.mp distinct with ⟨frontDistinct, _, apart⟩
      rw [tip_concat]
      intro record present same
      have named : hash last = genesis ∨ ∃ before ∈ front, hash last = hash before := by
        rcases List.mem_append.mp present with inFront | isLast
        · rcases frontLinked.prev_mem inFront with atStart | ⟨before, held, names⟩
          · exact .inl (same ▸ atStart)
          · exact .inr ⟨before, held, same ▸ names⟩
        · rw [List.mem_singleton] at isLast
          subst isLast
          rcases @tip_cases _ _ hash genesis front with ⟨_, atStart⟩ | ⟨before, held, atEnd⟩
          · exact .inl (same ▸ names.trans atStart)
          · exact .inr ⟨before, held, same ▸ names.trans atEnd⟩
      rcases named with atStart | ⟨before, held, equal⟩
      · exact separated.fresh last (by simp) atStart
      · have := separated.injective last (by simp) before (by simp [held]) equal
        exact apart before held last (by simp) this.symm

theorem Linked.nodup (linked : Linked prev hash genesis path)
    (separated : Separated hash genesis path) : path.Nodup := by
  induction path using List.reverseRecOn with
  | nil => exact .nil
  | append_singleton front last induction =>
      have frontSeparated := separated.mono (List.subset_append_left front [last])
      rcases linked_append.mp linked with ⟨frontLinked, names, _⟩
      have frontDistinct := induction frontLinked frontSeparated
      apply frontDistinct.append (List.nodup_singleton last)
      intro record held isLast
      rw [List.mem_singleton] at isLast
      subst isLast
      exact frontLinked.tip_fresh frontSeparated frontDistinct record held names

/-- In a chain no two records name the same hash. -/
theorem Linked.single (linked : Linked prev hash genesis path)
    (separated : Separated hash genesis path) :
    ∀ left ∈ path, ∀ right ∈ path, prev left = prev right → left = right := by
  induction path using List.reverseRecOn with
  | nil => simp
  | append_singleton front last induction =>
      have frontSeparated := separated.mono (List.subset_append_left front [last])
      rcases linked_append.mp linked with ⟨frontLinked, names, _⟩
      have fresh := frontLinked.tip_fresh frontSeparated (frontLinked.nodup frontSeparated)
      intro left inLeft right inRight same
      simp only [List.mem_append, List.mem_singleton] at inLeft inRight
      rcases inLeft with leftFront | rfl <;> rcases inRight with rightFront | rfl
      · exact induction frontLinked frontSeparated left leftFront right rightFront same
      · exact absurd (same.trans names) (fresh left leftFront)
      · exact absurd (same.symm.trans names) (fresh right rightFront)
      · rfl

/-- Two chains within records of which no two name the same hash, where the
second cannot go on: the first is the beginning of the second. -/
theorem Linked.isPrefix {longest : List Record}
    (linked : Linked prev hash link path) (within : path ⊆ records)
    (other : Linked prev hash link longest) (otherWithin : longest ⊆ records)
    (single : ∀ left ∈ records, ∀ right ∈ records, prev left = prev right → left = right)
    (ended : ∀ record ∈ records, prev record ≠ tip hash link longest) :
    path <+: longest := by
  induction path generalizing link longest with
  | nil => exact List.nil_prefix
  | cons first rest induction =>
      rcases linked with ⟨names, linked⟩
      have firstIn := within List.mem_cons_self
      cases longest with
      | nil => exact absurd names (ended first firstIn)
      | cons head tail =>
          rcases other with ⟨headNames, other⟩
          have same : first = head :=
            single first firstIn head (otherWithin List.mem_cons_self)
              (names.trans headNames.symm)
          subst same
          exact List.cons_prefix_cons.mpr ⟨rfl, induction linked
            (List.subset_of_cons_subset within) other
            (List.subset_of_cons_subset otherWithin) ended⟩

/-- A chain that cannot go on has met every record if and only if the records are
those of one chain. -/
theorem Linked.covers (linked : Linked prev hash genesis path)
    (separated : Separated hash genesis records)
    (single : ∀ left ∈ records, ∀ right ∈ records, prev left = prev right → left = right)
    (within : path ⊆ records)
    (ended : ∀ record ∈ records, prev record ≠ tip hash genesis path) :
    path.length = records.length ↔
      ∃ path, path.Perm records ∧ Linked prev hash genesis path := by
  have inside := (linked.nodup (separated.mono within)).subperm within
  constructor
  · intro length
    exact ⟨path, inside.perm_of_length_le (Nat.le_of_eq length.symm), linked⟩
  · rintro ⟨other, same, otherLinked⟩
    have beginning := otherLinked.isPrefix same.subset linked within single ended
    have atMost := inside.length_le
    have atLeast := beginning.length_le
    rw [same.length_eq] at atLeast
    omega

/-! ## What the walk finds -/

variable [DecidableEq Link]

@[simp] theorem mem_byPrev {record : Record} :
    record ∈ byPrev prev records link ↔ record ∈ records ∧ prev record = link := by
  simp [byPrev]

/-- Without a fork, a hash is named by one record at most. -/
theorem forked_eq_false (distinct : records.Nodup) :
    forked prev records = false ↔
      ∀ left ∈ records, ∀ right ∈ records, prev left = prev right → left = right := by
  simp only [forked, List.any_eq_false, decide_eq_true_eq, Nat.not_lt]
  constructor
  · intro short left inLeft right inRight same
    have leftNamed : left ∈ byPrev prev records (prev right) := mem_byPrev.mpr ⟨inLeft, same⟩
    have rightNamed : right ∈ byPrev prev records (prev right) := mem_byPrev.mpr ⟨inRight, rfl⟩
    have bound := short right inRight
    cases named : byPrev prev records (prev right) with
    | nil => simp [named] at leftNamed
    | cons first rest =>
        have alone : rest = [] := by
          rw [named, List.length_cons] at bound
          exact List.length_eq_zero_iff.mp (by omega)
        simp only [named, alone, List.mem_singleton] at leftNamed rightNamed
        exact leftNamed.trans rightNamed.symm
  · intro single record present
    have group : (byPrev prev records (prev record)).Nodup := distinct.filter _
    have within : byPrev prev records (prev record) ⊆ [record] := by
      intro other named
      rw [mem_byPrev] at named
      exact List.mem_singleton.mpr (single other named.1 record present named.2)
    exact (group.subperm within).length_le

/-- The walk follows the chain to a record that no other one names, and counts
what it meets. -/
theorem walk_eq (separated : Separated hash genesis records) {turns : Nat}
    {front : List Record} {current : Record}
    (linked : Linked prev hash genesis (front ++ [current]))
    (within : front ++ [current] ⊆ records) (enough : records.length ≤ turns + front.length) :
    ∃ rest, Linked prev hash genesis (front ++ current :: rest) ∧
      front ++ current :: rest ⊆ records ∧
      (∀ record ∈ records, prev record ≠ tip hash genesis (front ++ current :: rest)) ∧
      walk prev hash records turns current = some (rest.length + 1) := by
  induction turns generalizing front current with
  | zero =>
      -- A chain within the records is not longer than they are.
      have distinct := linked.nodup (separated.mono within)
      have bound := (distinct.subperm within).length_le
      simp at bound enough
      omega
  | succ turns induction =>
      simp only [walk]
      cases found : (byPrev prev records (hash current)).head? with
      | none =>
          refine ⟨[], linked, within, ?_, rfl⟩
          rw [List.head?_eq_none_iff] at found
          intro record present names
          rw [tip_concat] at names
          have named : record ∈ byPrev prev records (hash current) :=
            mem_byPrev.mpr ⟨present, names⟩
          simp [found] at named
      | some next =>
          have named := mem_byPrev.mp (List.mem_of_mem_head? found)
          have further : Linked prev hash genesis (front ++ [current] ++ [next]) :=
            linked_append.mpr ⟨linked, by rw [tip_concat]; exact named.2, trivial⟩
          have stillWithin : front ++ [current] ++ [next] ⊆ records :=
            List.append_subset.mpr ⟨within, by simpa using named.1⟩
          have remaining : records.length ≤ turns + (front ++ [current]).length := by
            rw [List.length_append, List.length_singleton]
            omega
          rcases induction further stillWithin remaining with
            ⟨rest, onward, inside, ended, counted⟩
          rw [List.append_assoc, List.singleton_append] at onward inside ended
          exact ⟨next :: rest, onward, inside, ended, by simp [counted]⟩

/-- The records that name the genesis in a chain: the first one. -/
theorem Linked.heads {head : Record} {tail : List Record}
    (linked : Linked prev hash genesis path) (separated : Separated hash genesis path)
    (same : path.Perm records) (chain : path = head :: tail) :
    byPrev prev records genesis = [head] := by
  have distinct := linked.nodup separated
  have single := linked.single separated
  subst chain
  have names : prev head = genesis := linked.1
  have headIn : head ∈ byPrev prev records genesis :=
    mem_byPrev.mpr ⟨same.subset List.mem_cons_self, names⟩
  have within : byPrev prev records genesis ⊆ [head] := by
    intro other named
    rw [mem_byPrev] at named
    exact List.mem_singleton.mpr (single other (same.symm.subset named.1) head
      List.mem_cons_self (named.2.trans names.symm))
  have group : (byPrev prev records genesis).Nodup := (same.nodup_iff.mp distinct).filter _
  have bound := (group.subperm within).length_le
  cases named : byPrev prev records genesis with
  | nil => simp [named] at headIn
  | cons first rest =>
      rw [named, List.length_cons, List.length_singleton] at bound
      have alone : rest = [] := List.length_eq_zero_iff.mp (by omega)
      simp only [named, alone, List.mem_singleton] at headIn
      rw [headIn, alone]

/-- The records are found whole if and only if they are those of one chain that
begins at the genesis. -/
theorem inspect_iff (separated : Separated hash genesis records) (distinct : records.Nodup)
    {turns : Nat} (enough : records.length ≤ turns) :
    ∃ finding, inspect prev hash genesis turns records = some finding ∧
      (finding = .whole ↔ ∃ path, path.Perm records ∧ Linked prev hash genesis path) := by
  unfold inspect
  split
  · next twice =>
      refine ⟨.fork, rfl, by simp, ?_⟩
      rintro ⟨path, same, linked⟩
      have single := linked.single (separated.mono same.subset)
      have unforked : forked prev records = false := by
        rw [forked_eq_false distinct]
        intro left inLeft right inRight
        exact single left (same.symm.subset inLeft) right (same.symm.subset inRight)
      simp [unforked] at twice
  · next once =>
      have single := (forked_eq_false distinct).mp (by simpa using once)
      split
      · next empty =>
          rw [List.isEmpty_iff] at empty
          exact ⟨.whole, rfl, fun _ => ⟨[], by simp [empty], trivial⟩, fun _ => rfl⟩
      · next nonempty =>
          split
          · next head named =>
              have headNamed : head ∈ byPrev prev records genesis := by simp [named]
              rw [mem_byPrev] at headNamed
              have begins : Linked prev hash genesis ([] ++ [head]) := ⟨headNamed.2, trivial⟩
              rcases walk_eq separated begins (by simpa using headNamed.1)
                (by simpa using enough) with ⟨rest, linked, within, ended, counted⟩
              rw [List.nil_append] at linked within ended
              have covers := linked.covers separated single within ended
              rw [List.length_cons] at covers
              refine ⟨if rest.length + 1 = records.length then .whole else .gap,
                by rw [counted]; rfl, ?_⟩
              rw [← covers]
              by_cases all : rest.length + 1 = records.length <;> simp [all]
          · next several =>
              refine ⟨.heads, rfl, by simp, ?_⟩
              rintro ⟨path, same, linked⟩
              cases path with
              | nil =>
                  have := same.symm.eq_nil
                  simp [this] at nonempty
              | cons head tail =>
                  have one := linked.heads (separated.mono same.subset) same rfl
                  exact absurd one (several head)

end HashChain

end Raphael.Foundation
