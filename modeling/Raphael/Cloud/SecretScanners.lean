import Raphael.Cloud.DatasetPolicy
import Raphael.Cloud.SyncTransport
import Raphael.Security.DataPolicy

/-! # The three secret scanners

The scanners of sync, of dataset uploads and of the data policy differ in the collections
that they enter. They agree on a payload where its secrets, if it holds any, do not all lie
inside tuples and sets. -/

namespace Raphael.Cloud

open Core Foundation Security

variable {World : Type}

/-- The policy has held for every push of the present call. -/
structure Session.PushesAllowed (policy : SyncPolicy) (session : Session World) : Prop where
  under : session.manager.policy = policy
  allowed : ∀ object answer, Exchange.pushed object answer ∈ session.exchanges →
    policy.canUpload object = true

namespace SyncTransport

variable {transport : SyncTransport World} {policy : SyncPolicy}

private theorem ask_allowed {Answer : Type} {effect : EStateM TransportError World Answer}
    {exchange : Except TransportError Answer → Exchange}
    (pushes : ∀ answer object given, exchange answer = .pushed object given →
      policy.canUpload object = true) :
    Preserves (Session.PushesAllowed policy) (Session.ask effect exchange) := by
  intro session before
  have noted : ∀ (world : World) answer,
      ({ session with world }.note (exchange answer)).PushesAllowed policy := by
    intro world answer
    refine ⟨before.under, fun object given member => ?_⟩
    rcases List.mem_append.mp member with earlier | new
    · exact before.allowed object given earlier
    · exact pushes answer object given (List.mem_singleton.mp new).symm
  unfold leaves Session.ask
  cases effect session.world with
  | ok answer world => exact noted world (.ok answer)
  | error error world => exact noted world (.error error)

private theorem acknowledge_allowed (objectId version : String) :
    Preserves (Session.PushesAllowed policy : Session World → Prop)
      (Session.acknowledge objectId version) :=
  .modify fun _ before => ⟨before.under, before.allowed⟩

private theorem pushObject_allowed {object : SyncObject}
    (uploadable : policy.canUpload object = true) (detail : String) :
    Preserves (Session.PushesAllowed policy) (transport.pushObject object detail) := by
  unfold pushObject
  apply Preserves.bind
  · apply ask_allowed
    intro answer other given same
    cases same
    exact uploadable
  · intro answer
    cases answer with
    | ok version => exact (acknowledge_allowed _ _).bind fun _ => .pure _
    | error error =>
        cases error with
        | network text => exact .pure _
        | other text => exact .throw _

private theorem syncOne_allowed (listing : Listing) (object : SyncObject) :
    Preserves (Session.PushesAllowed policy) (transport.syncOne listing object) := by
  intro session before
  cases decided : session.manager.decision object listing with
  | skip detail =>
      rw [leaves, syncOne_of_skip decided]
      exact before
  | conflict detail =>
      rw [leaves, syncOne_of_conflict decided]
      exact before
  | agree =>
      rw [leaves, syncOne_of_agree decided]
      refine ⟨before.under, fun other answer member => ?_⟩
      rcases List.mem_append.mp member with earlier | new
      · exact before.allowed other answer earlier
      · cases List.mem_singleton.mp new
  | push detail =>
      have uploadable := (SyncManager.listed_of_push decided).1
      rw [before.under] at uploadable
      rw [leaves, syncOne_of_push decided]
      exact pushObject_allowed uploadable detail session before

private theorem pullOne_allowed (localIds : List String) (entry : String × Version) :
    Preserves (Session.PushesAllowed policy) (transport.pullOne localIds entry) := by
  unfold pullOne
  apply Preserves.bind
  · exact .get
  · intro session
    dsimp only
    split
    · exact .pure _
    · apply Preserves.bind
      · apply ask_allowed
        intro answer other given same
        cases same
      · intro answer
        cases answer with
        | error error => exact .throw _
        | ok found =>
            cases found with
            | none => exact .pure _
            | some remote =>
                dsimp only
                split
                · exact (acknowledge_allowed _ _).bind fun _ => .pure _
                · exact .pure _

private theorem sync_allowed (objects : List SyncObject) :
    Preserves (Session.PushesAllowed policy) (transport.sync objects) := by
  unfold sync
  apply Preserves.bind
  · apply ask_allowed
    intro answer other given same
    cases same
  · intro answer
    cases answer with
    | error error =>
        cases error with
        | network text => exact .pure _
        | other text => exact .throw _
    | ok listing =>
        apply (Preserves.mapM (syncOne_allowed listing) objects).bind
        intro handled
        apply Preserves.bind
        · exact (Preserves.mapM (pullOne_allowed _) _).bind fun _ => .pure _
        · exact fun _ => .pure _

private theorem keepLocal_allowed (objectId : String) (object : SyncObject) :
    Preserves (Session.PushesAllowed policy) (transport.keepLocal objectId object) := by
  unfold keepLocal
  apply @Preserves.bind_of _ _ _ _ (Session.PushesAllowed policy) get
    (fun session => session.manager.policy = policy) _ .get
  · rintro state value after before returns
    cases returns
    exact before.under
  · rintro session rfl
    dsimp only
    split
    · exact .pure _
    · next uploadable =>
        apply Preserves.bind
        · apply ask_allowed
          intro answer other given same
          cases same
          simpa using uploadable
        · intro answer
          cases answer with
          | ok version => exact (acknowledge_allowed _ _).bind fun _ => .pure _
          | error error =>
              cases error with
              | network text => exact .pure _
              | other text => exact .throw _

private theorem keepRemote_allowed (objectId : String) (object : SyncObject) :
    Preserves (Session.PushesAllowed policy) (transport.keepRemote objectId object) := by
  unfold keepRemote
  apply Preserves.bind
  · apply ask_allowed
    intro answer other given same
    cases same
  · intro answer
    cases answer with
    | error error => exact .throw _
    | ok found =>
        cases found with
        | none => exact .pure _
        | some remote =>
            apply Preserves.bind
            · exact .get
            · intro session
              dsimp only
              split
              · exact (acknowledge_allowed _ _).bind fun _ => .pure _
              · exact .pure _

private theorem resolve_allowed (objectId keep : String) (objects : List SyncObject) :
    Preserves (Session.PushesAllowed policy) (transport.resolve objectId keep objects) := by
  unfold resolve
  split
  · exact .throw _
  · split
    · exact .throw _
    · next object _ =>
        apply Preserves.bind
        · apply ask_allowed
          intro answer other given same
          cases same
        · intro answer
          cases answer with
          | error error =>
              cases error with
              | network text => exact .pure _
              | other text => exact .throw _
          | ok listing =>
              dsimp only
              split
              · exact keepLocal_allowed objectId object
              · exact keepRemote_allowed objectId object

/-- Whatever the transport does, the manager pushes only what its policy lets it upload. -/
theorem canUpload_of_pushed {session : Session World} {call : SyncCall} {object : SyncObject}
    {answer : Except TransportError String}
    (pushed : Exchange.pushed object answer ∈ (transport.behind session call).exchanges) :
    session.manager.policy.canUpload object = true := by
  have start : ({ session with exchanges := [] } : Session World).PushesAllowed
      session.manager.policy := ⟨rfl, by simp⟩
  have keeps : Preserves (Session.PushesAllowed session.manager.policy)
      (transport.perform call) := by
    cases call with
    | sync objects => exact (sync_allowed objects).bind fun _ => .pure _
    | resolve objectId keep objects =>
        exact (resolve_allowed objectId keep objects).bind fun _ => .pure _
  exact (keeps _ start).allowed object answer pushed

end SyncTransport

/-- The manager pushes no object over which the sync scanner finds a secret. -/
theorem not_pushed_of_containsSecrets {transport : SyncTransport World}
    {session : Session World} {call : SyncCall} {object : SyncObject}
    (found : containsSecrets (.fields object.payload) = true)
    (answer : Except TransportError String) :
    Exchange.pushed object answer ∉ (transport.behind session call).exchanges := by
  intro pushed
  have uploadable := SyncTransport.canUpload_of_pushed pushed
  unfold SyncPolicy.canUpload SyncPolicy.classify at uploadable
  rw [if_pos found] at uploadable
  exact absurd uploadable (by decide)

/-- The scanners give the verdict whether the payload holds a secret, and a payload that
holds one stays here. -/
structure ScannersAgree (payload : Payload) : Prop where
  sync : containsSecrets payload = true ↔ payload.HoldsSecret
  dataset : DatasetPolicy.containsSecrets payload = true ↔ payload.HoldsSecret
  egress : DataPolicy.containsSecret payload = true ↔ payload.HoldsSecret
  notPushed : payload.HoldsSecret → ∀ {World : Type} (transport : SyncTransport World)
    (session : Session World) (call : SyncCall) (object : SyncObject)
    (answer : Except TransportError String), payload = .fields object.payload →
    Exchange.pushed object answer ∉ (transport.behind session call).exchanges
  notAccepted : payload.HoldsSecret → ∀ (policy : DatasetPolicy) (name kind : String)
    (sizeBytes : SizeBytes), policy.check name kind sizeBytes (some payload) ≠ .ok ()
  notLetOut : payload.HoldsSecret → ∀ (policy : DataPolicy) (destination : String)
    (declared : Option DataClass), destination ∉ policy.localDestinations →
    policy.requireEgress payload destination declared ≠ .ok ()

/-- The data policy scanner enters everything. -/
theorem dataPolicy_containsSecret_iff {payload : Payload} :
    DataPolicy.containsSecret payload = true ↔ payload.HoldsSecret := by
  rw [DataPolicy.containsSecret_eq_scan]
  exact Payload.scan_iff

/-- The dataset scanner finds no less than the sync scanner, and nothing that is not
there. -/
theorem dataset_containsSecrets_of_holdsInLists {payload : Payload}
    (holds : payload.HoldsInLists) : DatasetPolicy.containsSecrets payload = true := by
  apply Payload.scan_iff.mpr
  apply holds.mono
  intro kind isList
  rw [isList, Bool.true_or]

theorem holdsSecret_of_dataset {payload : Payload}
    (found : DatasetPolicy.containsSecrets payload = true) : payload.HoldsSecret :=
  (Payload.scan_iff.mp found).mono fun _ _ => rfl

/-- The scanners agree on a payload if and only if a secret that it holds is also held
outside all its tuples and sets. -/
theorem scannersAgree_iff (payload : Payload) :
    ScannersAgree payload ↔ (payload.HoldsSecret → payload.HoldsInLists) := by
  constructor
  · intro agree holds
    exact Payload.scan_iff.mp (agree.sync.mpr holds)
  · intro outside
    have sync : containsSecrets payload = true ↔ payload.HoldsSecret :=
      ⟨fun found => (Payload.scan_iff.mp found).mono fun _ _ => rfl,
        fun holds => Payload.scan_iff.mpr (outside holds)⟩
    have dataset : DatasetPolicy.containsSecrets payload = true ↔ payload.HoldsSecret :=
      ⟨holdsSecret_of_dataset,
        fun holds => dataset_containsSecrets_of_holdsInLists (outside holds)⟩
    refine ⟨sync, dataset, dataPolicy_containsSecret_iff, ?_, ?_, ?_⟩
    · rintro holds _ transport session call object answer rfl
      exact not_pushed_of_containsSecrets (sync.mpr holds) answer
    · intro holds policy name kind sizeBytes
      exact DatasetPolicy.check_ne_ok (dataset.mpr holds) policy name kind sizeBytes
    · intro holds policy destination declared abroad
      exact DataPolicy.requireEgress_ne_ok (dataPolicy_containsSecret_iff.mpr holds) policy
        abroad declared

/-- A credential in a tuple. -/
def credentialInTuple : Payload :=
  .fields [("rows", .collection .tuple [.str "sk-abcd1234"])]

/-- The sync scanner passes over a tuple that the other two enter. -/
theorem scanners_disagree : ¬ ∀ payload, ScannersAgree payload := by
  intro agree
  have holds : credentialInTuple.HoldsSecret :=
    dataPolicy_containsSecret_iff.mp (by decide +kernel)
  have found := (agree credentialInTuple).sync.mpr holds
  exact absurd found (by decide +kernel)

end Raphael.Cloud
