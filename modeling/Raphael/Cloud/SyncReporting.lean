import Raphael.Cloud.SyncTransport

/-! # What a manager reports of a failing transport

A history of calls of one manager, over a transport that raises network errors as it
likes. The books of the manager are exact when each id is acknowledged at the version
that was pushed, matched or downloaded last. -/

namespace Raphael.Cloud

open Foundation

/-- The version under an id that was noted last. -/
def lastVersion (handshakes : List (String × String)) (objectId : String) : Option String :=
  (handshakes.reverse.find? (·.1 = objectId)).map Prod.snd

theorem lastVersion_append (handshakes : List (String × String))
    (handshake : String × String) (objectId : String) :
    lastVersion (handshakes ++ [handshake]) objectId =
      if handshake.1 = objectId then some handshake.2
      else lastVersion handshakes objectId := by
  unfold lastVersion
  rw [List.reverse_append, List.reverse_singleton, List.singleton_append, List.find?_cons]
  by_cases same : handshake.1 = objectId <;> simp [same]

/-- A pull returned, and what is downloaded has the version that was listed. -/
def Exchange.Truthful (policy : SyncPolicy) : Exchange → Prop
  | .pulled _ (some version) (.ok (some remote)) =>
      policy.canDownload (policy.classify remote) = true → remote.version = version
  | .pulled _ _ (.error _) => False
  | _ => True

namespace SyncTransport

/-- Every exception of the transport is a ConnectionError or an OSError. -/
structure RaisesNetwork {World : Type} (transport : SyncTransport World) : Prop where
  listVersions : ∀ world error after,
    transport.listVersions world = .error error after → ∃ text, error = .network text
  push : ∀ object world error after,
    transport.push object world = .error error after → ∃ text, error = .network text
  pull : ∀ objectId world error after,
    transport.pull objectId world = .error error after → ∃ text, error = .network text

end SyncTransport

namespace Session

variable {World : Type}

def ExactAt (session : Session World) (objectId : String) : Prop :=
  session.manager.acknowledged.get objectId = lastVersion session.handshakes objectId

def Exact (session : Session World) : Prop := ∀ objectId, session.ExactAt objectId

/-- The exchanges of the present call are truthful, and the books are exact. -/
structure Reckoned (policy : SyncPolicy) (session : Session World) : Prop where
  under : session.manager.policy = policy
  truthful : ∀ exchange ∈ session.exchanges, exchange.Truthful policy
  exact : session.Exact

/-- A call of the transport returns to the manager in any case. -/
theorem ask_cases {Answer : Type} (effect : EStateM TransportError World Answer)
    (exchange : Except TransportError Answer → Exchange) (session : Session World) :
    ∃ answer world, ask effect exchange session =
        .ok answer ({ session with world }.note (exchange answer)) ∧
      ∀ error, answer = .error error → ∃ after, effect session.world = .error error after := by
  unfold ask
  cases ran : effect session.world with
  | ok answer world =>
      refine ⟨.ok answer, world, rfl, fun error raised => ?_⟩
      cases raised
  | error error world =>
      refine ⟨.error error, world, rfl, fun other raised => ?_⟩
      cases raised
      exact ⟨world, rfl⟩

variable {policy : SyncPolicy} {session : Session World} {exchange : Exchange}

/-- An exchange that tells no version leaves the books. -/
theorem exactAt_note (under : session.manager.policy = policy) (world : World)
    (silent : exchange.handshake policy = none) (objectId : String) :
    ({ session with world }.note exchange).ExactAt objectId ↔ session.ExactAt objectId := by
  unfold ExactAt Session.note
  rw [under, silent]
  simp

/-- After a handshake the books are exact at its id when the version is the acknowledged
one. -/
theorem exactAt_shake (under : session.manager.policy = policy) (world : World)
    {objectId told : String} (tells : exchange.handshake policy = some (objectId, told))
    (version other : String) :
    (session.shake world exchange objectId version).ExactAt other ↔
      if other = objectId then told = version else session.ExactAt other := by
  unfold ExactAt shake Session.note SyncManager.acknowledge
  dsimp only
  rw [under, tells, Dict.get_set, Option.toList_some, lastVersion_append]
  by_cases same : other = objectId
  · subst same
    simp [eq_comm]
  · simp [same, Ne.symm same]

private theorem truthful_note (truthful : ∀ other ∈ session.exchanges, other.Truthful policy)
    (here : exchange.Truthful policy) :
    ∀ other ∈ session.exchanges ++ [exchange], other.Truthful policy := by
  intro other member
  rcases List.mem_append.mp member with earlier | new
  · exact truthful other earlier
  · exact List.mem_singleton.mp new ▸ here

/-- An exchange that tells no version, in exact books. -/
theorem Reckoned.note (reckoned : session.Reckoned policy) (world : World)
    (truthful : exchange.Truthful policy) (silent : exchange.handshake policy = none) :
    ({ session with world }.note exchange).Reckoned policy where
  under := reckoned.under
  truthful := truthful_note reckoned.truthful truthful
  exact := fun objectId =>
    (exactAt_note reckoned.under world silent objectId).mpr (reckoned.exact objectId)

/-- A version that is acknowledged as it was told, in exact books. -/
theorem Reckoned.shake (reckoned : session.Reckoned policy) (world : World)
    {objectId version : String} (truthful : exchange.Truthful policy)
    (tells : exchange.handshake policy = some (objectId, version)) :
    (session.shake world exchange objectId version).Reckoned policy where
  under := reckoned.under
  truthful := truthful_note reckoned.truthful truthful
  exact := by
    intro other
    rw [exactAt_shake reckoned.under world tells]
    split
    · rfl
    · exact reckoned.exact other

end Session

/-- The result is an entry for the object. -/
def SyncResult.Names (result : SyncResult) (object : SyncObject) : Prop :=
  result.objectId = object.objectId ∧ result.objectType = object.objectType

namespace SyncTransport

variable {World : Type} {transport : SyncTransport World} {policy : SyncPolicy}
  {session : Session World}

/-- A push that fails is reported. -/
private theorem pushObject_reports (network : transport.RaisesNetwork)
    (reckoned : session.Reckoned policy) (object : SyncObject) (detail : String) :
    ∃ result after, transport.pushObject object detail session = .ok result after ∧
      result.Names object ∧ after.Reckoned policy := by
  unfold pushObject
  rcases Session.ask_cases (transport.push object) (.pushed object) session with
    ⟨answer, world, asked, raised⟩
  rw [bind_apply, asked]
  cases answer with
  | ok version =>
      exact ⟨_, session.shake world (.pushed object (.ok version)) object.objectId version,
        rfl, ⟨rfl, rfl⟩, reckoned.shake world trivial rfl⟩
  | error error =>
      rcases raised error rfl with ⟨after, raises⟩
      rcases network.push object _ error after raises with ⟨text, rfl⟩
      exact ⟨_, _, rfl, ⟨rfl, rfl⟩, reckoned.note world trivial rfl⟩

/-- `_sync_one` returns a result for its object. -/
private theorem syncOne_reports (network : transport.RaisesNetwork)
    (reckoned : session.Reckoned policy) (listing : Listing) (object : SyncObject) :
    ∃ result after, transport.syncOne listing object session = .ok result after ∧
      result.Names object ∧ after.Reckoned policy := by
  cases decided : session.manager.decision object listing with
  | skip detail => exact ⟨_, session, syncOne_of_skip decided, ⟨rfl, rfl⟩, reckoned⟩
  | push detail =>
      rw [syncOne_of_push decided]
      exact pushObject_reports network reckoned object detail
  | agree =>
      exact ⟨_, _, syncOne_of_agree decided, ⟨rfl, rfl⟩, reckoned.shake _ trivial rfl⟩
  | conflict detail => exact ⟨_, session, syncOne_of_conflict decided, ⟨rfl, rfl⟩, reckoned⟩

/-- One entry of the listing: it is passed over, the pull raises, nothing is acknowledged,
or the entry is acknowledged as it was listed. -/
private theorem pullOne_cases (under : session.manager.policy = policy)
    (localIds : List String) (entry : String × Version) :
    (∃ result, transport.pullOne localIds entry session = .ok result session) ∨
    ∃ world answer,
      (∃ error, answer = .error error ∧ transport.pullOne localIds entry session =
        .error (.transport error)
          ({ session with world }.note (.pulled entry.1 (some entry.2.1) answer))) ∨
      ((Exchange.pulled entry.1 (some entry.2.1) answer).Truthful policy ∧
        (Exchange.pulled entry.1 (some entry.2.1) answer).handshake policy = none ∧
        ∃ result, transport.pullOne localIds entry session =
          .ok result ({ session with world }.note (.pulled entry.1 (some entry.2.1) answer))) ∨
      ∃ remote, answer = .ok (some remote) ∧
        policy.canDownload (policy.classify remote) = true ∧
        ∃ result, transport.pullOne localIds entry session =
          .ok result (session.shake world (.pulled entry.1 (some entry.2.1) answer)
            entry.1 entry.2.1) := by
  unfold pullOne
  rw [get_bind_apply]
  by_cases passed : session.manager.passesOver localIds entry.1 entry.2.1 = true
  · exact .inl ⟨none, by simp only [passed, if_true]; rfl⟩
  · right
    rcases Session.ask_cases (transport.pull entry.1)
      (.pulled entry.1 (some entry.2.1)) session with ⟨answer, world, asked, raised⟩
    refine ⟨world, answer, ?_⟩
    simp only [passed, if_false, bind_apply, asked, Bool.false_eq_true]
    cases answer with
    | error error => exact .inl ⟨error, rfl, rfl⟩
    | ok found =>
        right
        cases found with
        | none => exact .inl ⟨trivial, rfl, none, rfl⟩
        | some remote =>
            dsimp only
            rw [under]
            by_cases allowed : policy.canDownload (policy.classify remote) = true
            · rw [if_pos allowed]
              exact .inr ⟨remote, rfl, allowed, _, rfl⟩
            · rw [if_neg allowed]
              refine .inl ⟨fun permitted => absurd permitted allowed, ?_, _, rfl⟩
              simp [Exchange.handshake, allowed]

/-- The books while the listing is gone through: they are exact, or an untruthful exchange
has made them wrong at an id that is done. -/
private structure Tally (policy : SyncPolicy) (entries : List (String × Version))
    (session : Session World) : Prop where
  distinct : (entries.map Prod.fst).Nodup
  under : session.manager.policy = policy
  books : session.Reckoned policy ∨
    (∃ exchange ∈ session.exchanges, ¬ exchange.Truthful policy) ∧
      ∃ objectId ∉ entries.map Prod.fst, ¬ session.ExactAt objectId

private theorem Tally.passed {entry : String × Version} {rest : List (String × Version)}
    (tally : Tally policy (entry :: rest) session) : Tally policy rest session where
  distinct := (List.nodup_cons.mp tally.distinct).2
  under := tally.under
  books := tally.books.imp_right fun ⟨untruthful, objectId, done, wrong⟩ =>
    ⟨untruthful, objectId, fun later => done (List.mem_cons_of_mem _ later), wrong⟩

/-- An exchange is noted that tells no version. -/
private theorem Tally.note {entries : List (String × Version)} {exchange : Exchange}
    (tally : Tally policy entries session) (world : World)
    (truthful : exchange.Truthful policy) (silent : exchange.handshake policy = none) :
    Tally policy entries ({ session with world }.note exchange) where
  distinct := tally.distinct
  under := tally.under
  books := by
    rcases tally.books with reckoned | ⟨⟨other, member, untruthful⟩, objectId, done, wrong⟩
    · exact .inl (reckoned.note world truthful silent)
    · refine .inr ⟨⟨other, List.mem_append_left _ member, untruthful⟩, objectId, done, ?_⟩
      rwa [Session.exactAt_note tally.under world silent]

/-- The entry is acknowledged as it was listed. -/
private theorem Tally.shake {entry : String × Version} {rest : List (String × Version)}
    (tally : Tally policy (entry :: rest) session) (world : World) {remote : SyncObject}
    (allowed : policy.canDownload (policy.classify remote) = true) :
    Tally policy rest (session.shake world
      (.pulled entry.1 (some entry.2.1) (.ok (some remote))) entry.1 entry.2.1) where
  distinct := (List.nodup_cons.mp tally.distinct).2
  under := tally.under
  books := by
    have tells : (Exchange.pulled entry.1 (some entry.2.1) (.ok (some remote))).handshake
        policy = some (entry.1, remote.version) := if_pos allowed
    have fresh : entry.1 ∉ rest.map Prod.fst := (List.nodup_cons.mp tally.distinct).1
    by_cases same : remote.version = entry.2.1
    · rcases tally.books with reckoned | ⟨⟨other, member, untruthful⟩, objectId, done, wrong⟩
      · refine .inl (reckoned.shake world (fun _ => same) ?_)
        rw [tells, same]
      · rw [List.map_cons, List.mem_cons, not_or] at done
        refine .inr ⟨⟨other, List.mem_append_left _ member, untruthful⟩, objectId, done.2, ?_⟩
        rwa [Session.exactAt_shake tally.under world tells, if_neg done.1]
    · refine .inr ⟨⟨_, List.mem_append_right _ (List.mem_singleton.mpr rfl),
        fun truthful => same (truthful allowed)⟩, entry.1, fresh, ?_⟩
      rwa [Session.exactAt_shake tally.under world tells, if_pos rfl]

/-- The books after the listing has been gone through. -/
private theorem Tally.pullAll {entries : List (String × Version)}
    (tally : Tally policy entries session) (transport : SyncTransport World)
    (localIds : List String) :
    (∀ results after, entries.mapM (transport.pullOne localIds) session =
        .ok results after → Tally policy [] after) ∧
      ∀ failure after, entries.mapM (transport.pullOne localIds) session =
        .error failure after → ∃ exchange ∈ after.exchanges, ¬ exchange.Truthful policy := by
  apply mapM_indexed (Tally policy)
    fun after => ∃ exchange ∈ after.exchanges, ¬ exchange.Truthful policy
  · intro entry rest state answer after tally ran
    rcases pullOne_cases tally.under localIds entry with
      ⟨result, passed⟩ | ⟨world, given, ⟨error, _, raised⟩ |
        ⟨truthful, silent, result, noted⟩ | ⟨remote, rfl, allowed, result, shaken⟩⟩
    · rw [passed] at ran
      cases ran
      exact tally.passed
    · rw [raised] at ran
      cases ran
    · rw [noted] at ran
      cases ran
      exact tally.passed.note world truthful silent
    · rw [shaken] at ran
      cases ran
      exact tally.shake world allowed
  · intro entry rest state error after tally ran
    rcases pullOne_cases tally.under localIds entry with
      ⟨result, passed⟩ | ⟨world, given, ⟨error, rfl, raised⟩ |
        ⟨truthful, silent, result, noted⟩ | ⟨remote, rfl, allowed, result, shaken⟩⟩
    · rw [passed] at ran
      cases ran
    · rw [raised] at ran
      cases ran
      exact ⟨_, List.mem_append_right _ (List.mem_singleton.mpr rfl), fun truthful => truthful⟩
    · rw [noted] at ran
      cases ran
    · rw [shaken] at ran
      cases ran
  · exact tally

private theorem tally_sorted (reckoned : session.Reckoned policy) (listing : Listing) :
    Tally policy (Syncing.sorted listing) session where
  distinct := by
    have sorted := (List.perm_insertionSort
      (fun left right : String × Version => left.1 ≤ right.1) listing.entries).map Prod.fst
    exact sorted.nodup_iff.mpr listing.distinct
  under := reckoned.under
  books := .inl reckoned

/-- What a run returns has an entry for every object, and the books tell whether all its
exchanges were truthful. -/
private structure Accounts (policy : SyncPolicy) (objects : List SyncObject)
    (ran : EStateM.Result SyncFailure (Session World) SyncReport) : Prop where
  returned : ∀ report after, ran = .ok report after →
    objects.map (fun object => (object.objectId, object.objectType)) <+:
      report.results.map (fun result => (result.objectId, result.objectType)) ∧
    (after.Exact ↔ ∀ exchange ∈ after.exchanges, exchange.Truthful policy)
  raised : ∀ failure after, ran = .error failure after →
    ∃ exchange ∈ after.exchanges, ¬ exchange.Truthful policy

private theorem names_of_forall₂ {objects : List SyncObject} {results : List SyncResult}
    (entries : List.Forall₂ (fun object (result : SyncResult) => result.Names object) objects
      results) :
    results.map (fun result => (result.objectId, result.objectType)) =
      objects.map fun object => (object.objectId, object.objectType) := by
  induction entries with
  | nil => rfl
  | cons named _ induction => rw [List.map_cons, List.map_cons, induction, named.1, named.2]

private theorem sync_accounts (network : transport.RaisesNetwork)
    (reckoned : session.Reckoned policy) (objects : List SyncObject) :
    Accounts policy objects (transport.sync objects session) := by
  unfold sync
  rcases Session.ask_cases transport.listVersions .listed session with
    ⟨answer, world, asked, raised⟩
  rw [bind_apply, asked]
  cases answer with
  | error error =>
      have noted : ({ session with world }.note (.listed (.error error))).Reckoned policy :=
        reckoned.note world trivial rfl
      rcases raised error rfl with ⟨after, raises⟩
      rcases network.listVersions _ error after raises with ⟨text, rfl⟩
      refine ⟨fun report other returns => ?_, fun _ other raised => ?_⟩
      · cases returns
        refine ⟨?_, ⟨fun _ => noted.truthful, fun _ => noted.exact⟩⟩
        rw [SyncReport.failed, List.map_map]
        rfl
      · cases raised
  | ok listing =>
      have noted : ({ session with world }.note (.listed (.ok listing))).Reckoned policy :=
        reckoned.note world trivial rfl
      rcases mapM_returns (Session.Reckoned policy)
        (fun object (result : SyncResult) => result.Names object)
        (fun object (_ : object ∈ objects) _ kept =>
          syncOne_reports network kept listing object) noted with
        ⟨handled, between, returns, named, kept⟩
      have pulls := (tally_sorted kept listing).pullAll transport
        (objects.map SyncObject.objectId)
      dsimp only
      rw [bind_apply, returns]
      dsimp only
      rw [bind_apply]
      unfold pullNew
      rw [bind_apply]
      cases ran : (Syncing.sorted listing).mapM
          (transport.pullOne (objects.map SyncObject.objectId)) between with
      | error failure after =>
          refine ⟨fun report other returns => ?_, fun _ other raised => ?_⟩
          · cases returns
          · cases raised
            exact pulls.2 failure after ran
      | ok fetched after =>
          refine ⟨fun report other returns => ?_, fun _ other raised => ?_⟩
          · cases returns
            have tally := pulls.1 fetched after ran
            refine ⟨⟨fetched.reduceOption.map fun result =>
              (result.objectId, result.objectType), ?_⟩, ?_⟩
            · rw [← names_of_forall₂ named, ← List.map_append]
              rfl
            · rcases tally.books with reckoned | ⟨⟨other, member, untruthful⟩, id, _, wrong⟩
              · exact ⟨fun _ => reckoned.truthful, fun _ => reckoned.exact⟩
              · exact ⟨fun exact => absurd (exact id) wrong,
                  fun truthful => absurd (truthful other member) untruthful⟩
          · cases raised

private theorem keepLocal_reports (network : transport.RaisesNetwork)
    (reckoned : session.Reckoned policy) {objectId : String} {object : SyncObject}
    (named : object.objectId = objectId) :
    ∃ result after, transport.keepLocal objectId object session = .ok result after ∧
      result.objectId = objectId ∧ after.Reckoned policy := by
  unfold keepLocal
  rw [get_bind_apply]
  by_cases held : (!session.manager.policy.canUpload object) = true
  · exact ⟨_, session, by simp only [held, if_true]; rfl, rfl, reckoned⟩
  · rcases Session.ask_cases (transport.push object) (.pushed object) session with
      ⟨answer, world, asked, raised⟩
    simp only [held, if_false, Bool.false_eq_true, bind_apply, asked]
    cases answer with
    | ok version =>
        exact ⟨_, session.shake world (.pushed object (.ok version)) objectId version,
          rfl, rfl, reckoned.shake world trivial (named ▸ rfl)⟩
    | error error =>
        rcases raised error rfl with ⟨after, raises⟩
        rcases network.push object _ error after raises with ⟨text, rfl⟩
        exact ⟨_, _, rfl, rfl, reckoned.note world trivial rfl⟩

/-- What `resolve` does with valid arguments: it returns with exact books, or a pull has
raised. -/
private def Resolves (policy : SyncPolicy) (objectId : String)
    (ran : EStateM.Result SyncFailure (Session World) SyncResult) : Prop :=
  (∃ result after, ran = .ok result after ∧ result.objectId = objectId ∧
    after.Reckoned policy) ∨
  ∃ failure after, ran = .error failure after ∧
    ∃ exchange ∈ after.exchanges, ¬ exchange.Truthful policy

private theorem keepRemote_accounts (reckoned : session.Reckoned policy) (objectId : String)
    (object : SyncObject) :
    Resolves policy objectId (transport.keepRemote objectId object session) := by
  unfold keepRemote
  rcases Session.ask_cases (transport.pull objectId) (.pulled objectId none) session with
    ⟨answer, world, asked, raised⟩
  rw [bind_apply, asked]
  cases answer with
  | error error =>
      exact .inr ⟨_, _, rfl, _, List.mem_append_right _ (List.mem_singleton.mpr rfl),
        fun truthful => truthful⟩
  | ok found =>
      left
      cases found with
      | none => exact ⟨_, _, rfl, rfl, reckoned.note world trivial rfl⟩
      | some remote =>
          dsimp only
          rw [get_bind_apply]
          have under := reckoned.under
          simp only [Session.note_manager, under]
          by_cases allowed : policy.canDownload (policy.classify remote) = true
          · rw [if_pos allowed]
            exact ⟨_, session.shake world (.pulled objectId none (.ok (some remote)))
              objectId remote.version, rfl, rfl,
              reckoned.shake world trivial (if_pos allowed)⟩
          · rw [if_neg allowed]
            exact ⟨_, _, rfl, rfl, reckoned.note world trivial (if_neg allowed)⟩

private theorem resolve_accounts (network : transport.RaisesNetwork)
    (reckoned : session.Reckoned policy) {objectId keep : String} {objects : List SyncObject}
    (keeps : keep ∈ ["local", "remote"]) (known : objectId ∈ objects.map SyncObject.objectId) :
    Resolves policy objectId (transport.resolve objectId keep objects session) := by
  have isFound : (objects.find? (·.objectId = objectId)).isSome := by
    rcases List.mem_map.mp known with ⟨object, member, named⟩
    exact List.find?_isSome.mpr ⟨object, member, by simpa using named⟩
  rcases Option.isSome_iff_exists.mp isFound with ⟨object, found⟩
  have named : object.objectId = objectId := by simpa using List.find?_some found
  unfold resolve
  rw [if_neg (not_not.mpr keeps)]
  rw [found]
  rcases Session.ask_cases transport.listVersions .listed session with
    ⟨answer, world, asked, raised⟩
  simp only [bind_apply, asked]
  cases answer with
  | error error =>
      rcases raised error rfl with ⟨after, raises⟩
      rcases network.listVersions _ error after raises with ⟨text, rfl⟩
      exact .inl ⟨_, _, rfl, rfl, reckoned.note world trivial rfl⟩
  | ok listing =>
      have noted : ({ session with world }.note (.listed (.ok listing))).Reckoned policy :=
        reckoned.note world trivial rfl
      dsimp only
      by_cases isLocal : keep = "local"
      · rw [if_pos isLocal]
        exact .inl (keepLocal_reports network noted named)
      · rw [if_neg isLocal]
        exact keepRemote_accounts noted objectId object

end SyncTransport

/-- The reply to `sync` has an entry for every object, the one to `resolve` is about its
id. -/
def SyncReply.Covers : SyncReply → SyncCall → Prop
  | .report returned, .sync objects =>
      objects.map (fun object => (object.objectId, object.objectType)) <+:
        returned.results.map fun entry => (entry.objectId, entry.objectType)
  | .result returned, .resolve objectId _ _ => returned.objectId = objectId
  | _, _ => False

/-- `resolve` is called with one of its two ways and the id of an object. -/
def SyncCall.Valid : SyncCall → Prop
  | .sync _ => True
  | .resolve objectId keep objects =>
      keep ∈ ["local", "remote"] ∧ objectId ∈ objects.map SyncObject.objectId

namespace SyncTransport

variable {World : Type} (transport : SyncTransport World)

/-- The call returns a reply that covers it, and leaves exact books. -/
def Accounted (session : Session World) (call : SyncCall) : Prop :=
  ∃ reply after, transport.serve session call = .ok reply after ∧ reply.Covers call ∧
    after.Exact

/-- The call is valid, no pull raises, and what the run downloads has the version that was
listed. -/
def Answered (session : Session World) (call : SyncCall) : Prop :=
  call.Valid ∧ ∀ exchange ∈ (transport.behind session call).exchanges,
    exchange.Truthful session.manager.policy

variable {transport} {session : Session World}

private theorem accounted_sync_iff (network : transport.RaisesNetwork)
    (exact : session.Exact) (objects : List SyncObject) :
    transport.Accounted session (.sync objects) ↔
      transport.Answered session (.sync objects) := by
  have reckoned : ({ session with exchanges := [] } : Session World).Reckoned
      session.manager.policy := ⟨rfl, by simp, exact⟩
  have accounts := sync_accounts network reckoned objects
  unfold Accounted Answered serve behind leaves
  simp only [perform, bind_apply]
  cases ran : transport.sync objects { session with exchanges := [] } with
  | ok report after =>
      rcases accounts.returned report after ran with ⟨covers, books⟩
      constructor
      · rintro ⟨reply, final, returns, _, isExact⟩
        cases returns
        exact ⟨trivial, books.mp isExact⟩
      · intro answered
        exact ⟨.report report, after, rfl, covers, books.mpr answered.2⟩
  | error failure after =>
      rcases accounts.raised failure after ran with ⟨exchange, member, untruthful⟩
      constructor
      · rintro ⟨reply, final, returns, _⟩
        cases returns
      · intro answered
        exact absurd (answered.2 exchange member) untruthful

private theorem resolve_of_invalid (transport : SyncTransport World)
    (session : Session World) {objectId keep : String} {objects : List SyncObject}
    (invalid : ¬ (SyncCall.resolve objectId keep objects).Valid) :
    ∃ message, transport.resolve objectId keep objects session =
      .error (.domainValidation message) session := by
  unfold resolve
  by_cases keeps : keep ∈ ["local", "remote"]
  · have absent : objects.find? (·.objectId = objectId) = none := by
      rw [List.find?_eq_none]
      intro object member named
      exact invalid ⟨keeps, List.mem_map.mpr ⟨object, member, by simpa using named⟩⟩
    rw [if_neg (not_not.mpr keeps), absent]
    exact ⟨_, rfl⟩
  · rw [if_pos keeps]
    exact ⟨_, rfl⟩

private theorem accounted_resolve_iff (network : transport.RaisesNetwork)
    (exact : session.Exact) (objectId keep : String) (objects : List SyncObject) :
    transport.Accounted session (.resolve objectId keep objects) ↔
      transport.Answered session (.resolve objectId keep objects) := by
  have reckoned : ({ session with exchanges := [] } : Session World).Reckoned
      session.manager.policy := ⟨rfl, by simp, exact⟩
  unfold Accounted Answered serve behind leaves
  simp only [perform, bind_apply]
  by_cases valid : (SyncCall.resolve objectId keep objects).Valid
  · rcases resolve_accounts network reckoned valid.1 valid.2 with
      ⟨result, after, returns, named, kept⟩ | ⟨failure, after, raises, untruthful⟩
    · rw [returns]
      exact ⟨fun _ => ⟨valid, kept.truthful⟩,
        fun _ => ⟨.result result, after, rfl, named, kept.exact⟩⟩
    · rw [raises]
      rcases untruthful with ⟨exchange, member, untruthful⟩
      constructor
      · rintro ⟨reply, final, returns, _⟩
        cases returns
      · intro answered
        exact absurd (answered.2 exchange member) untruthful
  · rcases resolve_of_invalid transport { session with exchanges := [] } valid with
      ⟨message, raises⟩
    rw [raises]
    constructor
    · rintro ⟨reply, final, returns, _⟩
      cases returns
    · intro answered
      exact absurd answered.1 valid

/-- A call of a manager with exact books reports every failure and keeps the books exact,
if and only if it is answered. -/
theorem accounted_iff_answered (network : transport.RaisesNetwork) (exact : session.Exact)
    (call : SyncCall) : transport.Accounted session call ↔ transport.Answered session call := by
  cases call with
  | sync objects => exact accounted_sync_iff network exact objects
  | resolve objectId keep objects =>
      exact accounted_resolve_iff network exact objectId keep objects

/-- A new manager over a transport. -/
def newSession (policy : SyncPolicy) (world : World) : Session World where
  manager := { policy }
  world := world

theorem exact_newSession (policy : SyncPolicy) (world : World) :
    (newSession policy world).Exact := fun _ => rfl

theorem Accounted.exact_behind {call : SyncCall} (accounted : transport.Accounted session call) :
    (transport.behind session call).Exact := by
  rcases accounted with ⟨reply, after, returns, _, exact⟩
  unfold behind leaves
  rw [show transport.perform call { session with exchanges := [] } = .ok reply after from
    returns]
  exact exact

/-- Calls that are all accounted for leave exact books. -/
private theorem exact_after {calls : List SyncCall} (exact : session.Exact)
    (accounted : ∀ earlier call, earlier ++ [call] <+: calls →
      transport.Accounted (transport.after session earlier) call) :
    (transport.after session calls).Exact := by
  induction calls using List.reverseRecOn with
  | nil => exact exact
  | append_singleton calls call _ =>
      unfold after
      rw [List.foldl_append]
      exact (accounted calls call (List.prefix_refl _)).exact_behind

/-- Every call of a history is accounted for, if and only if every call is answered. -/
theorem history_accounted_iff (network : transport.RaisesNetwork) (policy : SyncPolicy)
    (world : World) (calls : List SyncCall) :
    (∀ earlier call, earlier ++ [call] <+: calls →
        transport.Accounted (transport.after (newSession policy world) earlier) call) ↔
      ∀ earlier call, earlier ++ [call] <+: calls →
        transport.Answered (transport.after (newSession policy world) earlier) call := by
  constructor
  · intro accounted earlier call isPrefix
    have exact := exact_after (exact_newSession policy world) fun before next within =>
      accounted before next (within.trans ((List.prefix_append _ _).trans isPrefix))
    exact (accounted_iff_answered network exact call).mp (accounted earlier call isPrefix)
  · intro answered earlier call isPrefix
    have exact : (transport.after (newSession policy world) earlier).Exact := by
      induction earlier using List.reverseRecOn generalizing call with
      | nil => exact exact_newSession policy world
      | append_singleton before last induction =>
          have within : before ++ [last] <+: calls := (List.prefix_append _ _).trans isPrefix
          have here := (accounted_iff_answered network (induction last within) last).mpr
            (answered before last within)
          unfold after
          rw [List.foldl_append]
          exact here.exact_behind
    exact (accounted_iff_answered network exact call).mpr (answered earlier call isPrefix)

/-- A network that goes down between the listing and the pulls. -/
def pullsFail : SyncTransport Unit where
  listVersions := pure ⟨[("task:9", "v2", "hash")], by simp⟩
  push object := pure object.version
  pull _ := throw (.network "mock network is down")

theorem pullsFail_raisesNetwork : pullsFail.RaisesNetwork where
  listVersions _ _ _ raises := by cases raises
  push _ _ _ _ raises := by cases raises
  pull _ _ _ _ raises := by
    cases raises
    exact ⟨_, rfl⟩

theorem history_accounted_iff_of_pullsFail :
    (∀ earlier call, earlier ++ [call] <+: [SyncCall.sync []] →
        pullsFail.Accounted (pullsFail.after (newSession {} ()) earlier) call) ↔
      ∀ earlier call, earlier ++ [call] <+: [SyncCall.sync []] →
        pullsFail.Answered (pullsFail.after (newSession {} ()) earlier) call :=
  history_accounted_iff pullsFail_raisesNetwork {} () [.sync []]

/-- The ConnectionError of a pull escapes from `sync`. -/
theorem pull_failure_escapes :
    ¬ ∀ (World : Type) (transport : SyncTransport World), transport.RaisesNetwork →
      ∀ (policy : SyncPolicy) (world : World) (calls earlier : List SyncCall)
        (call : SyncCall), earlier ++ [call] <+: calls →
        transport.Accounted (transport.after (newSession policy world) earlier) call := by
  intro reports
  rcases reports Unit pullsFail pullsFail_raisesNetwork {} () [.sync []] [] (.sync [])
    (List.prefix_refl _) with ⟨reply, after, returns, _⟩
  have raises : pullsFail.serve (newSession {} ()) (.sync []) = .error
      (.transport (.network "mock network is down"))
      (pullsFail.behind (newSession {} ()) (.sync [])) := rfl
  rw [show pullsFail.after (newSession {} ()) [] = newSession {} () from rfl, raises] at returns
  cases returns

end SyncTransport

end Raphael.Cloud
