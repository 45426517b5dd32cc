import Raphael.Cloud.Availability
import Raphael.Foundation.SlotTable

/-! # Heartbeats against polls

Every call edits a copy of the row that it has listed and writes it back. When no write loses
what a heartbeat has left behind. -/

namespace Raphael.Cloud

open Foundation Persistence

namespace Presences

variable {Call : Type u} {service : PCAvailabilityService}

/-- No device has two rows; and a device of which a heartbeat has returned, without a change of
an operator since, has a row that has seen it since, and that is OFFLINE only where its lease
has run out. -/
structure PresenceKept (service : PCAvailabilityService) (state : Presences Call) : Prop where
  single : (state.table.rows.map DevicePresence.deviceId).Nodup
  kept : ∀ deviceId moment, state.promised deviceId = some moment →
    ∃ row ∈ state.table.rows, row.deviceId = deviceId ∧ moment ≤ row.lastSeen ∧
      (row.status = .offline → service.expired row state.clock = true)

/-- What has been promised of the device is not after the moment. -/
def NotAfter (state : Presences Call) (deviceId : String) (moment : Int) : Prop :=
  ∀ promised, state.promised deviceId = some promised → promised ≤ moment

/-- The condition on the next write of a call: a row is made where the device has none, no row
is written back that has seen less than a heartbeat that has returned, and no heartbeat reports
OFFLINE while its lease lasts. -/
def TimelyWrite (service : PCAvailabilityService) (state : Presences Call) :
    PresencePhase → Prop
  | .creating presence =>
      state.table.get presence.id = none →
        (∀ row ∈ state.table.rows, row.deviceId ≠ presence.deviceId) ∧
          (presence.status = .offline → service.expired presence state.clock = true)
  | .refreshing presence _ =>
      state.NotAfter presence.deviceId presence.lastSeen ∧
        (presence.status = .offline → service.expired presence state.clock = true)
  | .expiring (presence :: _) _ => state.NotAfter presence.deviceId presence.lastSeen
  | _ => True

def Timely (service : PCAvailabilityService) (state : Presences Call) :
    PresenceAction Call → Prop
  | .advance call _ => ∀ phase, state.phase call = some phase → state.TimelyWrite service phase
  | _ => True

/-! ## Copies -/

/-- The copy is of a stored row, of the same device. -/
def Stored (table : SnapshotTable DevicePresence) (copy : DevicePresence) : Prop :=
  ∃ row, table.get copy.id = some row ∧ row.deviceId = copy.deviceId

/-- What is known of a call in flight. -/
def Valid (service : PCAvailabilityService) (state : Presences Call) : PresencePhase → Prop
  | .refreshing presence _ | .editing presence _ => Stored state.table presence
  | .listing moment => moment ≤ state.clock
  | .expiring rest _ => ∀ copy ∈ rest, Stored state.table copy ∧
      service.expired copy state.clock = true
  | _ => True

def AllValid (service : PCAvailabilityService) (state : Presences Call) : Prop :=
  ∀ call phase, state.phase call = some phase → state.Valid service phase

/-- The rows stay, under their devices, and the clock does not go back. -/
structure Onward (before after : Presences Call) : Prop where
  clock : before.clock ≤ after.clock
  rows : ∀ copy, Stored before.table copy → Stored after.table copy

theorem expired_of_le {presence : DevicePresence} {earlier later : Int}
    (expired : service.expired presence earlier = true) (order : earlier ≤ later) :
    service.expired presence later = true := by
  simp only [PCAvailabilityService.expired, decide_eq_true_eq] at expired ⊢
  omega

theorem Valid.onward {before after : Presences Call} {phase : PresencePhase}
    (valid : before.Valid service phase) (onward : Onward before after) :
    after.Valid service phase := by
  cases phase with
  | finding beat caps moment => trivial
  | creating presence => trivial
  | refreshing presence previous => exact onward.rows presence valid
  | requiring deviceId change => trivial
  | editing presence change => exact onward.rows presence valid
  | listing moment => exact le_trans valid onward.clock
  | expiring rest expired =>
      intro copy member
      have ⟨stored, old⟩ := valid copy member
      exact ⟨onward.rows copy stored, expired_of_le old onward.clock⟩

theorem stored_of_mem {table : SnapshotTable DevicePresence} {row : DevicePresence}
    (member : row ∈ table.rows) : Stored table row :=
  ⟨row, SnapshotTable.get_eq_some_iff.mpr ⟨member, rfl⟩, rfl⟩

theorem stored_of_findPresence {table : SnapshotTable DevicePresence} {deviceId : String}
    {row : DevicePresence} (found : findPresence table deviceId = some row) :
    row ∈ table.rows ∧ row.deviceId = deviceId := by
  refine ⟨SnapshotTable.mem_list.mp (List.mem_of_find?_eq_some found), ?_⟩
  simpa using List.find?_some found

/-! ## What a write does to the rows -/

theorem mem_update {table : SnapshotTable DevicePresence} {now : Int}
    {copy row : DevicePresence} :
    row ∈ (table.update now copy).1.rows ↔
      row = Entity.touch now copy ∨ row ∈ table.rows ∧ row.id ≠ copy.id := by
  have byId : ∀ (held : SnapshotTable DevicePresence),
      row ∈ held.rows ↔ held.get row.id = some row := fun held =>
    (and_iff_left rfl).symm.trans SnapshotTable.get_eq_some_iff.symm
  rw [byId, byId, SnapshotTable.get_update, DevicePresence.entity_id]
  by_cases same : row.id = copy.id
  · rw [if_pos same]
    constructor
    · intro touched
      exact .inl (Option.some.inj touched).symm
    · rintro (rfl | ⟨_, differs⟩)
      · rfl
      · exact absurd same differs
  · rw [if_neg same]
    constructor
    · exact fun found => .inr ⟨found, same⟩
    · rintro (rfl | ⟨found, _⟩)
      · exact absurd rfl same
      · exact found

theorem devices_update {table : SnapshotTable DevicePresence} {copy : DevicePresence} {now : Int}
    (stored : Stored table copy) :
    (table.update now copy).1.rows.map DevicePresence.deviceId =
      table.rows.map DevicePresence.deviceId := by
  rcases stored with ⟨held, found, device⟩
  unfold SnapshotTable.update
  dsimp only
  split
  · simp only [SnapshotTable.replace, List.map_map]
    refine List.map_congr_left fun row member => ?_
    by_cases same : row.id = copy.id
    · have isHeld : table.get copy.id = some row :=
        SnapshotTable.get_eq_some_iff.mpr ⟨member, same⟩
      cases found.symm.trans isHeld
      simpa [Entity.id, Entity.touch, same] using device.symm
    · simp [Entity.id, Entity.touch, same]
  · next unused => cases found.symm.trans unused

theorem stored_update {table : SnapshotTable DevicePresence} {copy other : DevicePresence}
    {now : Int} (written : Stored table copy) (stored : Stored table other) :
    Stored (table.update now copy).1 other := by
  rcases written with ⟨row, found, device⟩
  rcases stored with ⟨held, isHeld, heldDevice⟩
  rw [Stored, SnapshotTable.get_update]
  by_cases same : other.id = copy.id
  · rw [same, found] at isHeld
    cases isHeld
    exact ⟨_, if_pos same, device.symm.trans heldDevice⟩
  · exact ⟨held, (if_neg same).trans isHeld, heldDevice⟩

theorem stored_create {table next : SnapshotTable DevicePresence}
    {presence created other : DevicePresence} {now : Int}
    (written : table.create now presence = .ok (next, created)) (stored : Stored table other) :
    Stored next other := by
  rcases stored with ⟨held, isHeld, device⟩
  refine ⟨held, ?_, device⟩
  rw [SnapshotTable.get_create written, if_neg, isHeld]
  rintro same
  rw [same] at isHeld
  cases (SnapshotTable.create_eq_ok written).2.2.symm.trans isHeld

/-! ## What is kept by a write -/

/-- After a row is written back, what is kept of its device is read off the copy. -/
theorem kept_update_iff {before after : Presences Call} {copy : DevicePresence} {now : Int}
    (kept : PresenceKept service before) (stored : Stored before.table copy)
    (table : after.table = (before.table.update now copy).1) (clock : after.clock = before.clock)
    (others : ∀ deviceId, deviceId ≠ copy.deviceId →
      after.promised deviceId = before.promised deviceId) :
    PresenceKept service after ↔ ∀ moment, after.promised copy.deviceId = some moment →
      moment ≤ copy.lastSeen ∧
        (copy.status = .offline → service.expired copy before.clock = true) := by
  have written : Entity.touch now copy ∈ after.table.rows := by
    rw [table]
    exact mem_update.mpr (.inl rfl)
  have single : (after.table.rows.map DevicePresence.deviceId).Nodup := by
    rw [table, devices_update stored]
    exact kept.single
  constructor
  · intro keptAfter moment promised
    rcases keptAfter.kept copy.deviceId moment promised with ⟨row, member, device, seen, off⟩
    have same : row = Entity.touch now copy :=
      List.inj_on_of_nodup_map single member written device
    subst same
    rw [clock] at off
    exact ⟨seen, off⟩
  · intro copied
    refine ⟨single, fun deviceId moment promised => ?_⟩
    by_cases same : deviceId = copy.deviceId
    · subst same
      rcases copied moment promised with ⟨seen, off⟩
      rw [clock]
      exact ⟨_, written, rfl, seen, off⟩
    · rw [others deviceId same] at promised
      rcases kept.kept deviceId moment promised with ⟨row, member, device, seen, off⟩
      refine ⟨row, ?_, device, seen, by rwa [clock]⟩
      rw [table]
      refine mem_update.mpr (.inr ⟨member, fun sameId => same ?_⟩)
      rcases stored with ⟨held, found, heldDevice⟩
      have isRow : before.table.get copy.id = some row :=
        SnapshotTable.get_eq_some_iff.mpr ⟨member, sameId⟩
      cases found.symm.trans isRow
      exact device.symm.trans heldDevice

/-- After a row is made, the device had none. -/
theorem kept_create_iff {before after : Presences Call} (presence : DevicePresence)
    {created : DevicePresence} {now : Int} (kept : PresenceKept service before)
    (written : before.table.create now presence = .ok (after.table, created))
    (clock : after.clock = before.clock)
    (promised : after.promised = (before.promise presence.deviceId presence.lastSeen).promised) :
    PresenceKept service after ↔
      (∀ row ∈ before.table.rows, row.deviceId ≠ presence.deviceId) ∧
        (presence.status = .offline → service.expired presence before.clock = true) := by
  rcases SnapshotTable.create_eq_ok written with ⟨isCreated, rows, _⟩
  have member : created ∈ after.table.rows := by simp [rows]
  have device : created.deviceId = presence.deviceId := by
    rw [isCreated]
    rfl
  have promisedOwn : ∃ moment, after.promised presence.deviceId = some moment := by
    rw [promised, promised_promise, if_pos rfl]
    exact ⟨_, rfl⟩
  constructor
  · intro keptAfter
    have single := keptAfter.single
    have alone : ∀ row ∈ before.table.rows, row.deviceId ≠ presence.deviceId := by
      intro row stored same
      rw [rows, List.map_append, List.nodup_append] at single
      exact single.2.2 row.deviceId (List.mem_map_of_mem stored) created.deviceId
        (by simp) (same.trans device.symm)
    refine ⟨alone, fun offline => ?_⟩
    rcases promisedOwn with ⟨moment, isPromised⟩
    rcases keptAfter.kept presence.deviceId moment isPromised with ⟨row, stored, same, _, off⟩
    have isRow : row = created :=
      List.inj_on_of_nodup_map single stored member (same.trans device.symm)
    rw [isRow, isCreated, clock] at off
    exact off offline
  · rintro ⟨alone, off⟩
    have unpromised : before.promised presence.deviceId = none := by
      cases found : before.promised presence.deviceId with
      | none => rfl
      | some moment =>
          rcases kept.kept presence.deviceId moment found with ⟨row, stored, same, _⟩
          exact absurd same (alone row stored)
    constructor
    · rw [rows, List.map_append, List.nodup_append]
      refine ⟨kept.single, List.nodup_singleton _, ?_⟩
      rintro _ stored _ made rfl
      rcases List.mem_map.mp stored with ⟨row, isRow, same⟩
      rw [List.map_singleton, List.mem_singleton] at made
      exact alone row isRow (same.trans (made.trans device))
    · intro deviceId moment found
      rw [promised, promised_promise] at found
      by_cases same : deviceId = presence.deviceId
      · subst same
        rw [if_pos rfl, unpromised] at found
        cases found
        rw [clock]
        refine ⟨created, member, device, ?_⟩
        rw [isCreated]
        exact ⟨le_rfl, off⟩
      · rw [if_neg same] at found
        rcases kept.kept deviceId moment found with ⟨row, stored, rowDevice, seen, rowOff⟩
        rw [clock]
        exact ⟨row, by simp [rows, stored], rowDevice, seen, rowOff⟩

/-- What touches no row and no promise keeps what was kept. -/
theorem PresenceKept.of_same {before after : Presences Call} (kept : PresenceKept service before)
    (table : after.table = before.table) (promised : after.promised = before.promised)
    (clock : before.clock ≤ after.clock) : PresenceKept service after := by
  refine ⟨table ▸ kept.single, fun deviceId moment found => ?_⟩
  rw [promised] at found
  rcases kept.kept deviceId moment found with ⟨row, stored, device, seen, off⟩
  rw [table]
  exact ⟨row, stored, device, seen, fun offline => expired_of_le (off offline) clock⟩

theorem Onward.of_table {before after : Presences Call} (table : after.table = before.table)
    (clock : before.clock ≤ after.clock) : Onward before after :=
  ⟨clock, fun _ stored => table ▸ stored⟩

theorem Onward.of_update {before after : Presences Call} {copy : DevicePresence} {now : Int}
    (stored : Stored before.table copy) (table : after.table = (before.table.update now copy).1)
    (clock : after.clock = before.clock) : Onward before after :=
  ⟨clock.ge, fun _ held => table ▸ stored_update stored held⟩

/-! ## One step -/

variable [DecidableEq Call]

theorem AllValid.step {before after : Presences Call} {call : Call} {slot : Option PresencePhase}
    (all : before.AllValid service) (onward : Onward before after)
    (moved : after.phase = Function.update before.phase call slot)
    (valid : ∀ phase, slot = some phase → after.Valid service phase) :
    after.AllValid service := by
  intro other phase found
  rw [moved] at found
  rcases update_eq_some found with ⟨_, same⟩ | ⟨_, stood⟩
  · exact valid phase same
  · exact (all other phase stood).onward onward

theorem stored_due {table : SnapshotTable DevicePresence} {moment clock : Int}
    (order : moment ≤ clock) :
    ∀ copy ∈ service.due table.list moment, Stored table copy ∧
      service.expired copy clock = true := by
  intro copy member
  rcases List.mem_map.mp member with ⟨row, listed, rfl⟩
  rcases List.mem_filter.mp listed with ⟨listed, due⟩
  have expired : service.expired row moment = true := by simp_all
  have stored := stored_of_mem (SnapshotTable.mem_list.mp listed)
  exact ⟨stored, expired_of_le expired order⟩

/-- What a call that reads goes on with, or is answered, changes no row and no promise. -/
theorem read_kept {before after : Presences Call} {call : Call} {slot : Option PresencePhase}
    (kept : PresenceKept service before) (all : before.AllValid service)
    (table : after.table = before.table) (promised : after.promised = before.promised)
    (clock : after.clock = before.clock)
    (moved : after.phase = Function.update before.phase call slot)
    (valid : ∀ phase, slot = some phase → before.Valid service phase) :
    after.AllValid service ∧ PresenceKept service after := by
  have onward : Onward before after := .of_table table clock.ge
  exact ⟨all.step onward moved fun phase same => (valid phase same).onward onward,
    kept.of_same table promised clock.ge⟩

/-- After a copy is written back, the calls in flight are valid, and what is kept is read off
the copy. -/
theorem write_kept {before after : Presences Call} {call : Call} {slot : Option PresencePhase}
    {copy : DevicePresence} (kept : PresenceKept service before) (all : before.AllValid service)
    (stored : Stored before.table copy)
    (table : after.table = (before.table.update before.clock copy).1)
    (clock : after.clock = before.clock)
    (others : ∀ deviceId, deviceId ≠ copy.deviceId →
      after.promised deviceId = before.promised deviceId)
    (moved : after.phase = Function.update before.phase call slot)
    (valid : ∀ phase, slot = some phase → before.Valid service phase) :
    after.AllValid service ∧
      (PresenceKept service after ↔ ∀ moment, after.promised copy.deviceId = some moment →
        moment ≤ copy.lastSeen ∧
          (copy.status = .offline → service.expired copy before.clock = true)) := by
  have onward : Onward before after := .of_update stored table clock
  exact ⟨all.step onward moved fun phase same => (valid phase same).onward onward,
    kept_update_iff kept stored table clock others⟩

variable {state : Presences Call} {call : Call} {id : String}

theorem creating_kept {presence : DevicePresence} (kept : PresenceKept service state)
    (all : state.AllValid service) :
    (advance service state call id (.creating presence)).AllValid service ∧
      (PresenceKept service (advance service state call id (.creating presence)) ↔
        state.TimelyWrite service (.creating presence)) := by
  simp only [advance, TimelyWrite]
  cases written : state.table.create state.clock presence with
  | error error =>
      have used : state.table.get presence.id ≠ none := by
        intro unused
        rcases SnapshotTable.create_ok_iff.mpr unused with ⟨created, done⟩
        cases written.symm.trans done
      exact And.imp_right (fun keeps => iff_of_true keeps fun unused => absurd unused used)
        (read_kept kept all rfl rfl rfl rfl fun _ impossible => by cases impossible)
  | ok result =>
      rcases result with ⟨table, created⟩
      have unused := (SnapshotTable.create_eq_ok written).2.2
      constructor
      · refine AllValid.step all ⟨le_rfl, fun _ stored => stored_create written stored⟩ rfl ?_
        exact fun _ impossible => by cases impossible
      · exact Iff.trans (kept_create_iff presence kept written rfl rfl)
          ⟨fun timely _ => timely, fun timely => timely unused⟩

theorem refreshing_kept {presence : DevicePresence} {previous : PCStatus}
    (kept : PresenceKept service state) (all : state.AllValid service)
    (stored : Stored state.table presence) :
    (advance service state call id (.refreshing presence previous)).AllValid service ∧
      (PresenceKept service (advance service state call id (.refreshing presence previous)) ↔
        state.TimelyWrite service (.refreshing presence previous)) := by
  refine And.imp_right (fun keeps => keeps.trans ?_) (write_kept kept all stored rfl rfl
    (fun deviceId apart => (promised_promise state presence.deviceId deviceId _).trans
      (if_neg apart)) rfl fun _ impossible => by cases impossible)
  have promised : (advance service state call id (.refreshing presence previous)).promised
      presence.deviceId = some (((state.promised presence.deviceId).map
        (max · presence.lastSeen)).getD presence.lastSeen) :=
    (promised_promise state presence.deviceId presence.deviceId _).trans (if_pos rfl)
  simp only [promised, Option.some.injEq, forall_eq', TimelyWrite]
  refine and_congr_left fun _ => ?_
  rw [NotAfter]
  cases state.promised presence.deviceId with
  | none => simp
  | some old => simp

theorem editing_kept {presence : DevicePresence} {change : OperatorChange}
    (kept : PresenceKept service state) (all : state.AllValid service)
    (stored : Stored state.table presence) :
    (advance service state call id (.editing presence change)).AllValid service ∧
      PresenceKept service (advance service state call id (.editing presence change)) := by
  refine And.imp_right (fun keeps => keeps.mpr ?_) (write_kept kept all stored rfl rfl
    (fun deviceId apart => (promised_release state presence.deviceId deviceId).trans
      (if_neg apart)) rfl fun _ impossible => by cases impossible)
  intro moment promised
  have released := (promised_release state presence.deviceId presence.deviceId).trans (if_pos rfl)
  cases released.symm.trans promised

theorem expiring_kept {presence : DevicePresence} {rest expired : List DevicePresence}
    (kept : PresenceKept service state) (all : state.AllValid service)
    (valid : state.Valid service (.expiring (presence :: rest) expired)) :
    (advance service state call id (.expiring (presence :: rest) expired)).AllValid service ∧
      (PresenceKept service (advance service state call id (.expiring (presence :: rest) expired)) ↔
        state.TimelyWrite service (.expiring (presence :: rest) expired)) := by
  have ⟨stored, old⟩ := valid presence List.mem_cons_self
  have copied : (∀ moment, state.promised presence.deviceId = some moment →
      moment ≤ presence.lastSeen ∧
        (presence.status = .offline → service.expired presence state.clock = true)) ↔
      state.NotAfter presence.deviceId presence.lastSeen :=
    forall₂_congr fun _ _ => and_iff_left fun _ => old
  simp only [advance]
  cases rest with
  | nil =>
      exact And.imp_right (fun keeps => keeps.trans copied) (write_kept kept all stored rfl rfl
        (fun _ _ => rfl) rfl fun _ impossible => by cases impossible)
  | cons next rest =>
      refine And.imp_right (fun keeps => keeps.trans copied) (write_kept kept all stored rfl rfl
        (fun _ _ => rfl) rfl fun phase same => ?_)
      cases same
      exact fun copy member => valid copy (List.mem_cons_of_mem presence member)

/-- What the next repository call of a call in flight does. -/
theorem advance_kept {phase : PresencePhase} (kept : PresenceKept service state)
    (all : state.AllValid service) (current : state.phase call = some phase) :
    (advance service state call id phase).AllValid service ∧
      (PresenceKept service (advance service state call id phase) ↔
        state.TimelyWrite service phase) := by
  have valid := all call phase current
  cases phase with
  | finding beat caps moment =>
      simp only [advance]
      split
      · refine And.imp_right (fun keeps => iff_of_true keeps trivial)
          (read_kept kept all rfl rfl rfl rfl fun phase same => ?_)
        cases same
        trivial
      · next existing found =>
          refine And.imp_right (fun keeps => iff_of_true keeps trivial)
            (read_kept kept all rfl rfl rfl rfl fun phase same => ?_)
          cases same
          have stored := stored_of_mem (stored_of_findPresence found).1
          exact stored
  | creating presence => exact creating_kept kept all
  | refreshing presence previous => exact refreshing_kept kept all valid
  | requiring deviceId change =>
      simp only [advance]
      split
      · exact And.imp_right (fun keeps => iff_of_true keeps trivial)
          (read_kept kept all rfl rfl rfl rfl fun _ impossible => by cases impossible)
      · next presence found =>
          refine And.imp_right (fun keeps => iff_of_true keeps trivial)
            (read_kept kept all rfl rfl rfl rfl fun phase same => ?_)
          cases same
          have stored := stored_of_mem (stored_of_findPresence found).1
          cases change <;> exact stored
  | editing presence change =>
      exact And.imp_right (fun keeps => iff_of_true keeps trivial) (editing_kept kept all valid)
  | listing moment =>
      simp only [advance]
      split
      · exact And.imp_right (fun keeps => iff_of_true keeps trivial)
          (read_kept kept all rfl rfl rfl rfl fun _ impossible => by cases impossible)
      · refine And.imp_right (fun keeps => iff_of_true keeps trivial)
          (read_kept kept all rfl rfl rfl rfl fun phase same => ?_)
        cases same
        exact stored_due valid
  | expiring rest expired =>
      cases rest with
      | nil =>
          exact And.imp_right (fun keeps => iff_of_true keeps trivial)
            (read_kept kept all rfl rfl rfl rfl fun _ impossible => by cases impossible)
      | cons presence rest => exact expiring_kept kept all valid

/-- One step keeps the calls in flight valid, and loses nothing exactly if it is timely. -/
theorem step_kept {next : Presences Call} {action : PresenceAction Call}
    (all : state.AllValid service) (kept : PresenceKept service state)
    (stepped : step service state action = some next) :
    next.AllValid service ∧ (PresenceKept service next ↔ state.Timely service action) := by
  cases action with
  | heartbeat call beat =>
      simp only [step] at stepped
      split at stepped
      · cases stepped
      · split at stepped <;> cases stepped
        · exact And.imp_right (fun keeps => iff_of_true keeps trivial)
            (read_kept kept all rfl rfl rfl rfl fun _ impossible => by cases impossible)
        · refine And.imp_right (fun keeps => iff_of_true keeps trivial)
            (read_kept kept all rfl rfl rfl rfl fun phase same => ?_)
          cases same
          trivial
  | change call deviceId change =>
      simp only [step] at stepped
      split at stepped <;> cases stepped
      refine And.imp_right (fun keeps => iff_of_true keeps trivial)
        (read_kept kept all rfl rfl rfl rfl fun phase same => ?_)
      cases same
      trivial
  | poll call =>
      simp only [step] at stepped
      split at stepped <;> cases stepped
      refine And.imp_right (fun keeps => iff_of_true keeps trivial)
        (read_kept kept all rfl rfl rfl rfl fun phase same => ?_)
      cases same
      exact le_rfl
  | advance call id =>
      rcases Option.map_eq_some_iff.mp stepped with ⟨phase, current, rfl⟩
      refine And.imp_right (fun keeps => keeps.trans ?_) (advance_kept kept all current)
      simp [Timely, current]
  | tick clock =>
      simp only [step, Option.ite_none_right_eq_some, Option.some.injEq] at stepped
      rcases stepped with ⟨forward, rfl⟩
      have onward : Onward state { state with clock } := .of_table rfl forward
      refine ⟨fun call phase current => (all call phase current).onward onward, ?_⟩
      exact iff_of_true (kept.of_same rfl rfl forward) trivial

theorem timely_of_disabled {action : PresenceAction Call}
    (disabled : step service state action = none) : state.Timely service action := by
  cases action with
  | advance call id =>
      intro phase current
      cases (Option.map_eq_none_iff.mp disabled).symm.trans current
  | heartbeat call beat => trivial
  | change call deviceId change => trivial
  | poll call => trivial
  | tick clock => trivial

/-- In every interleaving, no presence is lost exactly if every write is timely. -/
theorem presence_kept_throughout_iff (service : PCAvailabilityService)
    (table : SnapshotTable DevicePresence) (clock : Int) (actions : List (PresenceAction Call)) :
    (step service).Throughout (PresenceKept service) { table, clock } actions ↔
      (table.rows.map DevicePresence.deviceId).Nodup ∧
        (step service).Meets (Timely service) { table, clock } actions := by
  have run : PresenceKept service ({ table, clock } : Presences Call) →
      ((step service).Throughout (PresenceKept service) { table, clock } actions ↔
        (step service).Meets (Timely service) { table, clock } actions) := fun kept =>
    StepFunction.throughout_iff_meets
      (fun _ _ _ all kept stepped => step_kept all kept stepped)
      (fun _ _ disabled => timely_of_disabled disabled)
      (fun _ _ impossible => by cases impossible) kept
  constructor
  · intro throughout
    have kept := throughout [] _ List.nil_prefix rfl
    exact ⟨kept.single, (run kept).mp throughout⟩
  · rintro ⟨single, meets⟩
    exact (run ⟨single, fun _ _ impossible => by cases impossible⟩).mpr meets

/-- A poll that has listed the row of a silent device is overtaken by its next heartbeat. -/
def overtakenPoll : List (PresenceAction Bool) :=
  [.heartbeat true { deviceId := "pc-1" }, .advance true "row", .advance true "",
    .tick 61000000, .poll false, .advance false "",
    .heartbeat true { deviceId := "pc-1" }, .advance true "", .advance true "",
    .advance false ""]

theorem poll_loses_heartbeat :
    (∃ final, (step {}).run { table := .empty "device_presence", clock := 0 } overtakenPoll =
        some final ∧ final.promised "pc-1" = some 61000000 ∧
          final.table.rows.map (fun row => (row.deviceId, row.lastSeen, row.status)) =
            [("pc-1", 0, .offline)]) ∧
      ¬ (step {}).Throughout (PresenceKept {}) { table := .empty "device_presence", clock := 0 }
        overtakenPoll := by
  have reached : ∃ final, (step {}).run { table := .empty "device_presence", clock := 0 }
      overtakenPoll = some final ∧ final.promised "pc-1" = some 61000000 ∧
        final.table.rows.map (fun row => (row.deviceId, row.lastSeen, row.status)) =
          [("pc-1", 0, .offline)] := ⟨_, rfl, by decide +kernel, by decide +kernel⟩
  refine ⟨reached, fun throughout => ?_⟩
  rcases reached with ⟨final, ran, promised, rows⟩
  have kept := throughout overtakenPoll final List.prefix_rfl ran
  rcases kept.kept "pc-1" 61000000 promised with ⟨row, member, _, seen, _⟩
  have listed := List.mem_map_of_mem
    (f := fun row : DevicePresence => (row.deviceId, row.lastSeen, row.status)) member
  rw [rows, List.mem_singleton] at listed
  have old : row.lastSeen = 0 := congrArg (fun triple => triple.2.1) listed
  omega

end Presences

end Raphael.Cloud
