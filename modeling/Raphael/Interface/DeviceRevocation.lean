import Mathlib.Data.Fintype.EquivFin
import Raphael.Interface.Gateway

/-! # The revocation of a device

A revocation drops the sessions and the secret of its device, and leaves the pairing codes
that are out. It lasts unless there is one of the device among them. -/

namespace Raphael.Interface

open Foundation

/-- Behind a revocation nothing succeeds on behalf of the device until a pairing code that
was issued since is redeemed. -/
def Lasting (deviceId : String) (later : List GatewayEvent) : Prop :=
  ∀ past event rest, later = past ++ event :: rest → event.OnBehalfOf deviceId →
    ∃ code token, .paired code deviceId token ∈ past ++ [event] ∧
      .issued code deviceId ∈ past

/-- Every revocation lasts, and no code is redeemed twice. -/
def RevocationHolds (events : List GatewayEvent) : Prop :=
  (∀ before deviceId later, events = before ++ .revoked deviceId :: later →
    Lasting deviceId later) ∧
  (events.filterMap GatewayEvent.redeemed).Nodup

/-! ## What is left of a device -/

/-- A code that was issued for the device has been redeemed. -/
def Renewed (deviceId : String) (later : List GatewayEvent) : Prop :=
  ∃ code token, .paired code deviceId token ∈ later ∧ .issued code deviceId ∈ later

/-- The device has no session, and its unused codes were issued since. -/
structure Quiet (deviceId : String) (later : List GatewayEvent) (gateway : EcosystemGateway) :
    Prop where
  sessions : ∀ token session, gateway.sessions.get token = some session →
    session.deviceId ≠ deviceId
  codes : ∀ code entry, gateway.codes.get code = some entry → entry.used = false →
    entry.deviceId = deviceId → .issued code deviceId ∈ later

/-- What has happened since a revocation, and the gateway it has led to. -/
structure Guarded (deviceId : String) (later : List GatewayEvent)
    (gateway : EcosystemGateway) : Prop where
  lasting : Lasting deviceId later
  guard : Renewed deviceId later ∨ Quiet deviceId later gateway

variable {settings : GatewaySettings} {deviceId : String} {later events : List GatewayEvent}
  {event : GatewayEvent} {gateway left : EcosystemGateway} {call : ClockedCall}

theorem lasting_nil (deviceId : String) : Lasting deviceId [] := by
  intro past event rest split
  simp at split

/-- A list that ends in a new item is cut inside the old one, or in front of the item. -/
private theorem concat_eq_append_cons {last other : GatewayEvent}
    {items past rest : List GatewayEvent} (cut : items ++ [last] = past ++ other :: rest) :
    (past = items ∧ other = last ∧ rest = []) ∨
      ∃ front, rest = front ++ [last] ∧ items = past ++ other :: front := by
  rcases List.eq_nil_or_concat rest with rfl | ⟨front, final, rfl⟩
  · rcases List.append_inj' cut rfl with ⟨rfl, same⟩
    cases same
    exact .inl ⟨rfl, rfl, rfl⟩
  · rw [List.concat_eq_append, ← List.cons_append, ← List.append_assoc] at cut
    rcases List.append_inj' cut rfl with ⟨rfl, same⟩
    cases same
    exact .inr ⟨front, List.concat_eq_append, rfl⟩

theorem Lasting.concat (lasting : Lasting deviceId later)
    (allowed : event.OnBehalfOf deviceId → ∃ code token,
      .paired code deviceId token ∈ later ++ [event] ∧ .issued code deviceId ∈ later) :
    Lasting deviceId (later ++ [event]) := by
  intro past other rest cut behalf
  rcases concat_eq_append_cons cut with ⟨rfl, rfl, _⟩ | ⟨front, _, inside⟩
  · exact allowed behalf
  · exact lasting past other front inside behalf

theorem Renewed.append (renewed : Renewed deviceId later) (events : List GatewayEvent) :
    Renewed deviceId (later ++ events) := by
  rcases renewed with ⟨code, token, paired, issued⟩
  exact ⟨code, token, List.mem_append_left _ paired, List.mem_append_left _ issued⟩

/-- Behind a renewal everything is allowed. -/
theorem Guarded.concat_of_renewed (guarded : Guarded deviceId later gateway)
    (renewed : Renewed deviceId later) : Guarded deviceId (later ++ [event]) left := by
  refine ⟨guarded.lasting.concat fun _ => ?_, .inl (renewed.append _)⟩
  rcases renewed with ⟨code, token, paired, issued⟩
  exact ⟨code, token, List.mem_append_left _ paired, issued⟩

/-- While the device is quiet, an event that is not on its behalf keeps it so. -/
theorem Guarded.concat_of_quiet (guarded : Guarded deviceId later gateway)
    (aside : ¬ event.OnBehalfOf deviceId) (quiet : Quiet deviceId (later ++ [event]) left) :
    Guarded deviceId (later ++ [event]) left :=
  ⟨guarded.lasting.concat fun behalf => absurd behalf aside, .inr quiet⟩

/-- A session that is minted for another device leaves this one quiet. -/
theorem Quiet.mint {now : Int} {token other : String} (quiet : Quiet deviceId later gateway)
    (minted : Mints settings now token other gateway left) (differs : other ≠ deviceId) :
    ∀ token session, left.sessions.get token = some session →
      session.deviceId ≠ deviceId := by
  intro token session found
  rcases minted token session found with ⟨_, isOther, _⟩ | ⟨_, before⟩
  · exact isOther ▸ differs
  · exact quiet.sessions token session before

theorem Quiet.codes_of_eq (quiet : Quiet deviceId later gateway)
    (same : left.codes = gateway.codes) (events : List GatewayEvent) :
    ∀ code entry, left.codes.get code = some entry → entry.used = false →
      entry.deviceId = deviceId → .issued code deviceId ∈ later ++ events := by
  intro code entry found unused device
  rw [same] at found
  exact List.mem_append_left _ (quiet.codes code entry found unused device)

/-- A call keeps what a revocation has left, whatever it does. -/
theorem Guarded.perform (guarded : Guarded deviceId later gateway)
    (performed : Performed settings gateway call left events) :
    Guarded deviceId (later ++ events) left := by
  rcases guarded.guard with renewed | quiet
  · cases performed with
    | drops =>
        rw [List.append_nil]
        exact ⟨guarded.lasting, .inl renewed⟩
    | issues | pairs | refreshes | revokes | checks => exact guarded.concat_of_renewed renewed
  · cases performed with
    | @issues issuedTo role code _ _ codes sessions _ =>
        apply guarded.concat_of_quiet id
        constructor
        · exact fun token session found => quiet.sessions token session (sessions _ _ found)
        · intro other entry found unused device
          rcases codes other entry found with ⟨rfl, isDevice⟩ | ⟨_, before⟩
          · rw [← isDevice, device]
            exact List.mem_append_right _ (List.mem_singleton_self _)
          · exact List.mem_append_left _ (quiet.codes other entry before unused device)
    | @pairs code deviceSecret token entry _ _ found unused codes minted _ =>
        by_cases device : entry.deviceId = deviceId
        · have issued := quiet.codes code entry found unused device
          have redeems : .paired code deviceId token ∈
              later ++ [.paired code entry.deviceId token] := by
            rw [device]
            exact List.mem_append_right _ (List.mem_singleton_self _)
          exact ⟨guarded.lasting.concat fun _ => ⟨code, token, redeems, issued⟩,
            .inl ⟨code, token, redeems, List.mem_append_left _ issued⟩⟩
        · have aside : ¬ (GatewayEvent.paired code entry.deviceId token).OnBehalfOf deviceId :=
            device
          apply guarded.concat_of_quiet aside
          refine ⟨quiet.mint minted device, ?_⟩
          intro other held stored unused isDevice
          rw [codes, Dict.get_set] at stored
          split at stored
          · cases stored
            cases unused
          · exact List.mem_append_left _ (quiet.codes other held stored unused isDevice)
    | @refreshes token fresh session _ _ live codes minted _ =>
        have aside : ¬ (GatewayEvent.refreshed session.deviceId fresh).OnBehalfOf deviceId :=
          quiet.sessions token session live.known
        apply guarded.concat_of_quiet aside
        exact ⟨quiet.mint minted aside, quiet.codes_of_eq codes _⟩
    | @revokes revokedDevice _ =>
        apply guarded.concat_of_quiet id
        refine ⟨fun token session found => ?_, quiet.codes_of_eq rfl _⟩
        exact quiet.sessions token session (Dict.get_filter_eq_some.mp found).1
    | @checks token scope nonce session _ admits =>
        have aside : ¬ (GatewayEvent.checked token session.deviceId scope nonce
            call.second).OnBehalfOf deviceId :=
          quiet.sessions token session admits.live.known
        apply guarded.concat_of_quiet aside
        unfold EcosystemGateway.remember
        split
        · exact ⟨quiet.sessions, quiet.codes_of_eq rfl _⟩
        · exact ⟨quiet.sessions, quiet.codes_of_eq rfl _⟩
    | drops drops =>
        rw [List.append_nil]
        refine ⟨guarded.lasting, .inr ⟨fun token session found => ?_, ?_⟩⟩
        · exact quiet.sessions token session (drops.sessions token session found)
        · exact List.append_nil later ▸ quiet.codes_of_eq drops.codes []

/-- A device with no code out is quiet behind its revocation. -/
theorem guarded_revokeDevice (none : gateway.outstanding deviceId = false) :
    Guarded deviceId [] (gateway.revokeDevice deviceId) := by
  refine ⟨lasting_nil deviceId, .inr ⟨fun token session found => ?_, ?_⟩⟩
  · simpa using (Dict.get_filter_eq_some.mp found).2
  · intro code entry found unused device
    have out : gateway.outstanding deviceId = true :=
      EcosystemGateway.outstanding_iff.mpr ⟨code, entry, found, unused, device⟩
    rw [none] at out
    cases out

/-! ## Runs -/

namespace GatewayHistory

/-- No device is revoked while an unused code for it is out. -/
def RevokesNoneOutstanding (history : GatewayHistory) (call : ClockedCall) : Prop :=
  match call.call with
  | .revokeDevice deviceId => history.gateway.outstanding deviceId = false
  | _ => True

instance (history : GatewayHistory) (call : ClockedCall) :
    Decidable (history.RevokesNoneOutstanding call) := by
  unfold RevokesNoneOutstanding
  split <;> infer_instance

/-- Every revocation is guarded, and every code that was redeemed is used up. -/
structure Sound (history : GatewayHistory) : Prop where
  guarded : ∀ before deviceId later, history.events = before ++ .revoked deviceId :: later →
    Guarded deviceId later history.gateway
  once : (history.events.filterMap GatewayEvent.redeemed).Nodup
  spent : ∀ code ∈ history.events.filterMap GatewayEvent.redeemed, code ∈ history.drawn ∧
    ∀ entry, history.gateway.codes.get code = some entry → entry.used = true
  known : ∀ code entry, history.gateway.codes.get code = some entry → code ∈ history.drawn

variable {history next : GatewayHistory}

theorem sound_start (clock : Int) : (start clock).Sound where
  guarded before deviceId later cut := by simp [start] at cut
  once := .nil
  spent code member := by simp [start] at member
  known code entry found := by cases found

/-- What a call makes of the codes that were redeemed before it. -/
theorem Sound.spent_perform (sound : history.Sound)
    (fresh : ∀ token ∈ call.call.draw, token ∉ history.drawn)
    (performed : Performed settings history.gateway call left events) :
    ∀ code ∈ history.events.filterMap GatewayEvent.redeemed,
      ∀ entry, left.codes.get code = some entry → entry.used = true := by
  intro code member entry found
  have before := (sound.spent code member).2
  cases performed with
  | @issues _ _ issued _ isCall codes _ _ =>
      rcases codes code entry found with ⟨rfl, _⟩ | ⟨_, old⟩
      · rw [isCall] at fresh
        exact absurd (sound.spent code member).1 (fresh code rfl)
      · exact before entry old
  | pairs _ _ _ codes _ _ =>
      rw [codes, Dict.get_set] at found
      split at found
      · cases found
        rfl
      · exact before entry found
  | refreshes _ _ codes _ _ => exact before entry (codes ▸ found)
  | revokes => exact before entry found
  | checks =>
      unfold EcosystemGateway.remember at found
      split at found
      · exact before entry found
      · exact before entry found
  | drops drops => exact before entry (drops.codes ▸ found)

/-- A call redeems a code that was not redeemed before, if any. -/
theorem Sound.redeems (sound : history.Sound)
    (performed : Performed settings history.gateway call left events) :
    events.filterMap GatewayEvent.redeemed = [] ∨
    ∃ code, events.filterMap GatewayEvent.redeemed = [code] ∧ code ∈ history.drawn ∧
      code ∉ history.events.filterMap GatewayEvent.redeemed ∧
      ∀ entry, left.codes.get code = some entry → entry.used = true := by
  cases performed with
  | @pairs code _ _ entry _ _ found unused codes _ _ =>
      refine .inr ⟨code, rfl, sound.known code entry found, fun member => ?_, fun held stored => ?_⟩
      · have used := (sound.spent code member).2 entry found
        rw [unused] at used
        cases used
      · rw [codes, Dict.get_set, if_pos rfl] at stored
        cases stored
        rfl
  | issues | refreshes | revokes | checks | drops => exact .inl rfl

/-- The codes behind a call were drawn for it or before. -/
theorem Sound.known_perform (sound : history.Sound)
    (performed : Performed settings history.gateway call left events) :
    ∀ code entry, left.codes.get code = some entry →
      code ∈ call.call.draw.toList ++ history.drawn := by
  intro code entry found
  have known := sound.known
  apply List.mem_append.mpr
  cases performed with
  | issues isCall codes _ _ =>
      rcases codes code entry found with ⟨rfl, _⟩ | ⟨_, before⟩
      · rw [isCall]
        exact .inl (List.mem_singleton_self _)
      · exact .inr (known code entry before)
  | @pairs redeemed _ _ held _ _ stored _ codes _ _ =>
      rw [codes, Dict.get_set] at found
      split at found
      · next same => exact .inr (known code held (same ▸ stored))
      · exact .inr (known code entry found)
  | refreshes _ _ codes _ _ => exact .inr (known code entry (codes ▸ found))
  | revokes => exact .inr (known code entry found)
  | checks =>
      unfold EcosystemGateway.remember at found
      split at found
      · exact .inr (known code entry found)
      · exact .inr (known code entry found)
  | drops drops => exact .inr (known code entry (drops.codes ▸ found))

/-- The revocations of a history, behind a call. -/
theorem Sound.guarded_perform (sound : history.Sound)
    (none : history.RevokesNoneOutstanding call)
    (performed : Performed settings history.gateway call left events) :
    ∀ before deviceId later, history.events ++ events = before ++ .revoked deviceId :: later →
      Guarded deviceId later left := by
  intro before deviceId later cut
  have one : events = [] ∨ ∃ event, events = [event] := by
    cases performed with
    | drops => exact .inl rfl
    | issues | pairs | refreshes | revokes | checks => exact .inr ⟨_, rfl⟩
  rcases one with rfl | ⟨event, rfl⟩
  · rw [List.append_nil] at cut
    have kept := (sound.guarded before deviceId later cut).perform performed
    rwa [List.append_nil] at kept
  · rcases concat_eq_append_cons cut with ⟨_, same, rfl⟩ | ⟨front, rfl, inside⟩
    · cases performed with
      | revokes isCall =>
          cases same
          simp only [RevokesNoneOutstanding, isCall] at none
          exact guarded_revokeDevice none
      | issues | pairs | refreshes | checks => cases same
    · exact (sound.guarded before deviceId front inside).perform performed

theorem Sound.step (sound : history.Sound) (none : history.RevokesNoneOutstanding call)
    (stepped : step settings history call = some next) : next.Sound := by
  rcases step_eq_some.mp stepped with ⟨fresh, rfl⟩
  rcases perform_sound settings history call with ⟨left, events, same, performed⟩
  rw [same]
  refine ⟨sound.guarded_perform none performed, ?_, ?_, sound.known_perform performed⟩
  · change ((history.events ++ events).filterMap _).Nodup
    rw [List.filterMap_append]
    rcases sound.redeems performed with quiet | ⟨code, redeems, _, unredeemed, _⟩
    · rw [quiet, List.append_nil]
      exact sound.once
    · rw [redeems]
      exact sound.once.append (List.nodup_singleton code) (by simpa using unredeemed)
  · intro code member
    change code ∈ (history.events ++ events).filterMap _ at member
    rw [List.filterMap_append, List.mem_append] at member
    rcases member with before | new
    · exact ⟨List.mem_append_right _ (sound.spent code before).1,
        sound.spent_perform fresh performed code before⟩
    · rcases sound.redeems performed with quiet | ⟨redeemed, redeems, drawn, _, spent⟩
      · rw [quiet] at new
        cases new
      · rw [redeems, List.mem_singleton] at new
        exact ⟨List.mem_append_right _ (new ▸ drawn), new ▸ spent⟩

/-- While no device is revoked with a code for it out, every revocation lasts. -/
theorem holds_of_revokesNoneOutstanding {clock : Int} {calls : List ClockedCall}
    {final : GatewayHistory}
    (none : StepFunction.Meets (step settings) RevokesNoneOutstanding (start clock) calls)
    (reached : StepFunction.run (step settings) (start clock) calls = some final) :
    RevocationHolds final.events := by
  have sound : final.Sound := StepFunction.invariant_of_meets
    (fun _ _ _ sound none stepped => sound.step none stepped) (sound_start clock) none reached
  exact ⟨fun before deviceId later cut => (sound.guarded before deviceId later cut).lasting,
    sound.once⟩

/-- A code that was out at the revocation pairs the device again. -/
theorem exists_pairing (out : history.gateway.outstanding deviceId = true)
    (first second : Int) :
    ∃ later final, StepFunction.run (step settings) history
        (⟨.revokeDevice deviceId, first, second⟩ :: later) = some final ∧
      ¬ RevocationHolds final.events := by
  rcases EcosystemGateway.outstanding_iff.mp out with ⟨code, entry, found, unused, device⟩
  rcases Infinite.exists_notMem_finset history.drawn.toFinset with ⟨token, fresh⟩
  rw [List.mem_toFinset] at fresh
  have strong : EcosystemGateway.strongSecret "0123456789abcdef" = true := by decide
  have pairs := @EcosystemGateway.pair_of_unused settings
    (history.gateway.revokeDevice deviceId) entry.expires entry.expires token code
    "0123456789abcdef" entry found unused (Int.le_refl _) strong
  let revoked := history.perform settings ⟨.revokeDevice deviceId, first, second⟩
  let pairing : ClockedCall :=
    ⟨.pair code "0123456789abcdef" token, entry.expires, entry.expires⟩
  have revokes : step settings history ⟨.revokeDevice deviceId, first, second⟩ =
      some revoked := step_eq_some.mpr ⟨fun _ draw => (Option.not_mem_none _ draw).elim, rfl⟩
  have redeems : step settings revoked pairing = some (revoked.perform settings pairing) := by
    refine step_eq_some.mpr ⟨fun other draw => ?_, rfl⟩
    cases draw
    exact fresh
  refine ⟨[pairing], revoked.perform settings pairing, ?_, fun holds => ?_⟩
  · exact StepFunction.run_cons_eq_some.mpr ⟨revoked, revokes,
      StepFunction.run_cons_eq_some.mpr ⟨_, redeems, rfl⟩⟩
  · have events : (revoked.perform settings pairing).events =
        history.events ++ .revoked deviceId :: [.paired code deviceId token] := by
      have known : ((history.gateway.revokeDevice deviceId).codes.get code) = some entry := found
      simp [perform, revoked, pairing, after, pairs, told, known, device]
    have lasting := holds.1 _ deviceId _ events
    rcases lasting [] _ [] rfl rfl with ⟨_, _, _, issued⟩
    cases issued

/-- A revocation lasts, and each code is redeemed at most once, in every history whose
revocations find no unused code of their device; any other revocation can be undone with a
code that was issued before it. -/
theorem revocationHolds_iff (settings : GatewaySettings) (clock : Int) :
    (∀ calls final, StepFunction.Meets (step settings) RevokesNoneOutstanding (start clock)
        calls →
      StepFunction.run (step settings) (start clock) calls = some final →
      RevocationHolds final.events) ∧
    ∀ calls history deviceId,
      StepFunction.run (step settings) (start clock) calls = some history →
      history.gateway.outstanding deviceId = true → ∀ first second, ∃ later final,
        StepFunction.run (step settings) (start clock)
            (calls ++ ⟨.revokeDevice deviceId, first, second⟩ :: later) = some final ∧
          ¬ RevocationHolds final.events := by
  refine ⟨fun _ _ => holds_of_revokesNoneOutstanding, ?_⟩
  intro calls history deviceId reached out first second
  rcases @exists_pairing settings deviceId history out first second with
    ⟨later, final, continued, broken⟩
  exact ⟨later, final,
    StepFunction.run_append_eq_some.mpr ⟨history, reached, continued⟩, broken⟩

/-- A device is paired, revoked without a code for it out, and paired anew. -/
def renewingCalls : List ClockedCall :=
  [⟨.issuePairingCode "phone-1" "phone" "c0de", 0, 0⟩,
    ⟨.pair "c0de" "0123456789abcdef" "t0ken", 1, 1⟩, ⟨.revokeDevice "phone-1", 2, 2⟩,
    ⟨.issuePairingCode "phone-1" "phone" "c1de", 3, 3⟩,
    ⟨.pair "c1de" "0123456789abcdef" "t1ken", 4, 4⟩]

theorem revocationHolds_renewed : ∃ final,
    StepFunction.run (step {}) (start 0) renewingCalls = some final ∧
      RevocationHolds final.events := by
  have none : StepFunction.Meets (step {}) RevokesNoneOutstanding (start 0) renewingCalls := by
    decide
  exact ⟨_, rfl, (revocationHolds_iff {} 0).1 renewingCalls _ none rfl⟩

/-- A code is issued, its device is revoked, and the code is redeemed. -/
theorem revoked_device_pairs_again : ¬ ∀ calls final,
    StepFunction.run (step {}) (start 0) calls = some final →
      RevocationHolds final.events := by
  intro all
  have holds := all [⟨.issuePairingCode "phone-1" "phone" "c0de", 0, 0⟩,
    ⟨.revokeDevice "phone-1", 1, 1⟩,
    ⟨.pair "c0de" "0123456789abcdef" "t0ken", 2, 2⟩] _ rfl
  have lasting := holds.1 [.issued "c0de" "phone-1"] "phone-1"
    [.paired "c0de" "phone-1" "t0ken"] (by decide)
  rcases lasting [] _ [] rfl rfl with ⟨_, _, _, issued⟩
  cases issued

end GatewayHistory

end Raphael.Interface
