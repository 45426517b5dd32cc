import Raphael.Cloud.SyncReporting

/-! # Retried synchronization

`retry_sync` runs `sync` again where it has failed as a whole. It looks at the state of the
report, which hides a failed object behind a successful one; and a run that raises at the
end of the budget leaves a report without entries. -/

namespace Raphael.Cloud

open Foundation

structure RetriedReport extends SyncReport where
  attempts : Nat

/-- How a run of `sync` ends. -/
abbrev SyncEnd (World : Type) := EStateM.Result SyncFailure (Session World) SyncReport

/-- The runs that are made, in order, and what is returned or raised behind them. -/
structure Retried (World : Type) where
  runs : List (SyncEnd World)
  reply : EStateM.Result SyncFailure (Session World) RetriedReport

/-- A run is made in front of others. -/
def Retried.behind {World : Type} (retried : Retried World) (run : SyncEnd World) :
    Retried World :=
  { retried with runs := run :: retried.runs }

namespace SyncTransport

variable {World : Type}

/-- The loop of `retry_sync`, after some attempts and with some retries left. -/
def retryFrom (transport : SyncTransport World) (objects : List SyncObject) (attempts : Nat) :
    Nat → Session World → Retried World
  | retries, session =>
      let run := transport.sync objects session
      match run, retries with
      | .error (.transport (.network _)) after, retries + 1 =>
          (retryFrom transport objects (attempts + 1) retries after).behind run
      | .error (.transport (.network text)) after, 0 =>
          { runs := [run]
            reply := .ok
              { state := .failed, results := [], error := s!"retry budget exhausted: {text}"
                attempts := attempts + 1 } after }
      | .error failure after, _ => { runs := [run], reply := .error failure after }
      | .ok report after, 0 =>
          { runs := [run], reply := .ok { report with attempts := attempts + 1 } after }
      | .ok report after, retries + 1 =>
          if report.state = .failed then
            (retryFrom transport objects (attempts + 1) retries after).behind run
          else { runs := [run], reply := .ok { report with attempts := attempts + 1 } after }

/-- `retry_sync`; the manager keeps `max(0, max_retries)`. -/
def retrySync (transport : SyncTransport World) (maxRetries : Nat) (objects : List SyncObject)
    (session : Session World) : Retried World :=
  transport.retryFrom objects 0 maxRetries session

/-! ## What a run of `sync` returns and raises -/

theorem names_pushObject {transport : SyncTransport World} {object : SyncObject}
    {detail : String} {session after : Session World} {result : SyncResult}
    (returns : transport.pushObject object detail session = .ok result after) :
    result.Names object := by
  unfold pushObject at returns
  rcases bind_eq_ok.mp returns with ⟨answer, middle, asked, returns⟩
  match answer with
  | .ok version =>
      cases returns
      exact ⟨rfl, rfl⟩
  | .error (.network text) =>
      cases returns
      exact ⟨rfl, rfl⟩
  | .error (.other text) => cases returns

theorem names_syncOne {transport : SyncTransport World} {listing : Listing}
    {object : SyncObject} {session after : Session World} {result : SyncResult}
    (returns : transport.syncOne listing object session = .ok result after) :
    result.Names object := by
  cases decided : session.manager.decision object listing with
  | skip detail =>
      rw [syncOne_of_skip decided] at returns
      cases returns
      exact ⟨rfl, rfl⟩
  | push detail =>
      rw [syncOne_of_push decided] at returns
      exact names_pushObject returns
  | agree =>
      rw [syncOne_of_agree decided] at returns
      cases returns
      exact ⟨rfl, rfl⟩
  | conflict detail =>
      rw [syncOne_of_conflict decided] at returns
      cases returns
      exact ⟨rfl, rfl⟩

/-- The report of a run has an entry for every local object. -/
theorem names_sync {transport : SyncTransport World} {objects : List SyncObject}
    {session after : Session World} {report : SyncReport}
    (returns : transport.sync objects session = .ok report after) :
    ∀ object ∈ objects, ∃ result ∈ report.results, result.Names object := by
  unfold sync at returns
  rcases bind_eq_ok.mp returns with ⟨answer, middle, asked, returns⟩
  match answer with
  | .error (.network text) =>
      cases returns
      exact fun object member => ⟨_, List.mem_map_of_mem member, rfl, rfl⟩
  | .error (.other text) => cases returns
  | .ok listing =>
      rcases bind_eq_ok.mp returns with ⟨handled, between, ran, returns⟩
      rcases bind_eq_ok.mp returns with ⟨fetched, last, _, returns⟩
      cases returns
      have named : List.Forall₂ (fun object (result : SyncResult) => result.Names object)
          objects handled := by
        refine mapM_eq_ok ?_ ran
        intro object session result after returns
        exact names_syncOne returns
      intro object member
      rcases List.getElem_of_mem member with ⟨index, bound, rfl⟩
      have within : index < handled.length := named.length_eq ▸ bound
      exact ⟨handled[index], List.mem_append_left _ (List.getElem_mem within),
        named.get bound within⟩

/-- A failure that `retry_sync` catches. -/
def SyncFailure.IsNetwork (failure : SyncFailure) : Prop :=
  ∃ text, failure = .transport (.network text)

/-- What a call of the transport answers is an answer or a network error. -/
theorem raisesOnly_ask_bind {Answer Result : Type}
    {effect : EStateM TransportError World Answer}
    {exchange : Except TransportError Answer → Exchange}
    {rest : Except TransportError Answer → SyncM World Result}
    (network : ∀ world error after, effect world = .error error after →
      ∃ text, error = .network text)
    (failed : ∀ text, RaisesOnly SyncFailure.IsNetwork (rest (.error (.network text))))
    (answered : ∀ answer, RaisesOnly SyncFailure.IsNetwork (rest (.ok answer))) :
    RaisesOnly SyncFailure.IsNetwork (Session.ask effect exchange >>= rest) := by
  have asks : RaisesOnly SyncFailure.IsNetwork (Session.ask effect exchange) := by
    apply RaisesOnly.of_returns
    intro session
    rcases Session.ask_cases effect exchange session with ⟨answer, world, asked, _⟩
    exact ⟨answer, _, asked⟩
  have tells : ∀ session answer after, Session.ask effect exchange session = .ok answer after →
      ∀ error, answer = .error error → ∃ text, error = .network text := by
    intro session answer after asked error isError
    rcases Session.ask_cases effect exchange session with ⟨other, world, same, raises⟩
    cases asked.symm.trans same
    rcases raises error isError with ⟨last, raised⟩
    exact network _ error last raised
  refine asks.bind_of tells fun answer isNetwork => ?_
  cases answer with
  | ok answer => exact answered answer
  | error error =>
      rcases isNetwork error rfl with ⟨text, rfl⟩
      exact failed text

section Network

variable {transport : SyncTransport World} (network : transport.RaisesNetwork)

include network

theorem raisesOnly_pushObject (object : SyncObject) (detail : String) :
    RaisesOnly SyncFailure.IsNetwork (transport.pushObject object detail) := by
  apply raisesOnly_ask_bind (network.push object)
  · exact fun text => RaisesOnly.pure _
  · intro version
    have acknowledges : RaisesOnly SyncFailure.IsNetwork
        (Session.acknowledge object.objectId version : SyncM World Unit) :=
      .of_returns fun session => ⟨_, _, rfl⟩
    exact acknowledges.bind fun _ => RaisesOnly.pure _

theorem raisesOnly_syncOne (listing : Listing) (object : SyncObject) :
    RaisesOnly SyncFailure.IsNetwork (transport.syncOne listing object) := by
  intro session failure after raises
  cases decided : session.manager.decision object listing with
  | skip detail =>
      rw [syncOne_of_skip decided] at raises
      cases raises
  | push detail =>
      rw [syncOne_of_push decided] at raises
      exact raisesOnly_pushObject network object detail session failure after raises
  | agree =>
      rw [syncOne_of_agree decided] at raises
      cases raises
  | conflict detail =>
      rw [syncOne_of_conflict decided] at raises
      cases raises

theorem raisesOnly_pullOne (localIds : List String) (entry : String × Version) :
    RaisesOnly SyncFailure.IsNetwork (transport.pullOne localIds entry) := by
  intro session failure after raises
  unfold pullOne at raises
  rw [get_bind_apply] at raises
  by_cases passed : session.manager.passesOver localIds entry.1 entry.2.1 = true
  · rw [if_pos passed] at raises
    cases raises
  · rw [if_neg passed] at raises
    refine raisesOnly_ask_bind (network.pull entry.1) ?_ ?_ session failure after raises
    · exact fun text => RaisesOnly.throw ⟨text, rfl⟩
    · intro found
      cases found with
      | none => exact RaisesOnly.pure _
      | some remote =>
          dsimp only
          split
          · have acknowledges : RaisesOnly SyncFailure.IsNetwork
                (Session.acknowledge entry.1 entry.2.1 : SyncM World Unit) :=
              .of_returns fun session => ⟨_, _, rfl⟩
            exact acknowledges.bind fun _ => RaisesOnly.pure _
          · exact RaisesOnly.pure _

/-- Only network errors escape from a run. -/
theorem raisesOnly_sync (objects : List SyncObject) :
    RaisesOnly SyncFailure.IsNetwork (transport.sync objects) := by
  apply raisesOnly_ask_bind network.listVersions
  · exact fun text => RaisesOnly.pure _
  · intro listing
    refine (RaisesOnly.mapM (raisesOnly_syncOne network listing) objects).bind fun handled => ?_
    have pulls : RaisesOnly SyncFailure.IsNetwork (transport.pullNew objects listing) :=
      (RaisesOnly.mapM (raisesOnly_pullOne network _) _).bind fun _ => RaisesOnly.pure _
    exact pulls.bind fun _ => RaisesOnly.pure _

end Network

end SyncTransport

/-! ## The budget -/

section Budget

variable {World : Type}

/-- The run has raised, or its report is a failure as a whole. -/
def SyncEnd.FailsWhole : SyncEnd World → Prop
  | .ok report _ => report.state = .failed
  | .error _ _ => True

/-- The report of the run is completed, and has a failed object. -/
def SyncEnd.HidesFailure : SyncEnd World → Prop
  | .ok report _ => report.state ≠ .failed ∧ report.results.any (·.state = .failed) = true
  | .error _ _ => False

def SyncEnd.Raises : SyncEnd World → Prop
  | .ok _ _ => False
  | .error _ _ => True

/-- No more runs than the budget, a report with an entry for every object, and none of them
failed unless the budget is used up. -/
structure Retried.UsesBudget (maxRetries : Nat) (objects : List SyncObject)
    (retried : Retried World) : Prop where
  bounded : retried.runs.length ≤ maxRetries + 1
  reports : ∃ report after, retried.reply = .ok report after ∧
    (report.results.any (·.state = .failed) = true → retried.runs.length = maxRetries + 1) ∧
      ∀ object ∈ objects, ∃ result ∈ report.results, result.Names object

theorem Retried.usesBudget_behind {maxRetries : Nat} {objects : List SyncObject}
    {retried : Retried World} {run : SyncEnd World} :
    (retried.behind run).UsesBudget (maxRetries + 1) objects ↔
      retried.UsesBudget maxRetries objects := by
  constructor
  · rintro ⟨bounded, report, after, replies, failed, entries⟩
    exact ⟨Nat.le_of_succ_le_succ bounded, report, after, replies,
      fun isFailed => Nat.succ.inj (failed isFailed), entries⟩
  · rintro ⟨bounded, report, after, replies, failed, entries⟩
    exact ⟨Nat.succ_le_succ bounded, report, after, replies,
      fun isFailed => congrArg Nat.succ (failed isFailed), entries⟩

namespace SyncTransport

/-- The run of `sync` behind a number of others. -/
def runAfter (transport : SyncTransport World) (objects : List SyncObject) :
    Nat → Session World → SyncEnd World
  | 0, session => transport.sync objects session
  | count + 1, session =>
      runAfter transport objects count (leaves (transport.sync objects) session)

/-- The first run that does not fail as a whole hides no failure, if it comes before the end
of the budget; and where there is none in front of the last run, that one raises only if there
are no objects. -/
structure Plain (transport : SyncTransport World) (objects : List SyncObject)
    (maxRetries : Nat) (session : Session World) : Prop where
  shown : ∀ count < maxRetries,
    (∀ earlier < count, (transport.runAfter objects earlier session).FailsWhole) →
      ¬ (transport.runAfter objects count session).HidesFailure
  reported : (∀ earlier < maxRetries, (transport.runAfter objects earlier session).FailsWhole) →
    (transport.runAfter objects maxRetries session).Raises → objects = []

variable {transport : SyncTransport World} {objects : List SyncObject} {retries : Nat}
  {session : Session World}

theorem plain_of_failsWhole
    (fails : SyncEnd.FailsWhole (transport.sync objects session)) :
    transport.Plain objects (retries + 1) session ↔
      transport.Plain objects retries (leaves (transport.sync objects) session) := by
  have behind (count : Nat) : (∀ earlier < count + 1,
        (transport.runAfter objects earlier session).FailsWhole) ↔
      ∀ earlier < count, (transport.runAfter objects earlier
        (leaves (transport.sync objects) session)).FailsWhole := by
    rw [Nat.forall_lt_succ_left]
    exact and_iff_right fails
  constructor
  · rintro ⟨shown, reported⟩
    refine ⟨fun count before failed => ?_, fun failed => ?_⟩
    · exact shown (count + 1) (Nat.succ_lt_succ before) ((behind count).mpr failed)
    · exact reported ((behind retries).mpr failed)
  · rintro ⟨shown, reported⟩
    refine ⟨fun count before failed hides => ?_, fun failed => ?_⟩
    · cases count with
      | zero =>
          change SyncEnd.HidesFailure (transport.sync objects session) at hides
          cases ran : transport.sync objects session with
          | ok report after =>
              rw [ran] at hides fails
              exact hides.1 fails
          | error failure after =>
              rw [ran] at hides
              exact hides
      | succ count =>
          exact shown count (Nat.lt_of_succ_lt_succ before) ((behind count).mp failed) hides
    · exact reported ((behind retries).mp failed)

theorem plain_of_completed {report : SyncReport} {after : Session World}
    (ran : transport.sync objects session = .ok report after)
    (completed : report.state ≠ .failed) :
    transport.Plain objects (retries + 1) session ↔
      report.results.any (·.state = .failed) = false := by
  have whole : ¬ (transport.runAfter objects 0 session).FailsWhole := by
    change ¬ SyncEnd.FailsWhole (transport.sync objects session)
    rw [ran]
    exact completed
  constructor
  · intro plain
    have hides := plain.shown 0 (Nat.succ_pos retries) fun _ none => (Nat.not_lt_zero _ none).elim
    change ¬ SyncEnd.HidesFailure (transport.sync objects session) at hides
    rw [ran] at hides
    exact Bool.eq_false_iff.mpr fun failed => hides ⟨completed, failed⟩
  · intro unfailed
    refine ⟨fun count _ failed => ?_, fun failed => (whole (failed 0 (Nat.succ_pos _))).elim⟩
    cases count with
    | zero =>
        change ¬ SyncEnd.HidesFailure (transport.sync objects session)
        rw [ran]
        rintro ⟨_, failed⟩
        rw [unfailed] at failed
        cases failed
    | succ count => exact (whole (failed 0 (Nat.succ_pos _))).elim

theorem usesBudget_exhausted (attempts : Nat) {text : String} {after : Session World}
    (ran : transport.sync objects session = .error (.transport (.network text)) after) :
    (transport.retryFrom objects attempts 0 session).UsesBudget 0 objects ↔ objects = [] := by
  unfold retryFrom
  simp only [ran]
  constructor
  · rintro ⟨_, report, last, replies, _, entries⟩
    cases replies
    rw [List.eq_nil_iff_forall_not_mem]
    intro object member
    rcases entries object member with ⟨result, none, _⟩
    exact List.not_mem_nil none
  · rintro rfl
    exact ⟨le_refl 1, _, after, rfl, fun _ => rfl, fun _ none => (List.not_mem_nil none).elim⟩

theorem usesBudget_last (attempts : Nat) {report : SyncReport} {after : Session World}
    (ran : transport.sync objects session = .ok report after) :
    (transport.retryFrom objects attempts 0 session).UsesBudget 0 objects := by
  unfold retryFrom
  simp only [ran]
  exact ⟨le_refl 1, _, after, rfl, fun _ => rfl, names_sync ran⟩

theorem usesBudget_completed (attempts : Nat) {report : SyncReport} {after : Session World}
    (ran : transport.sync objects session = .ok report after)
    (completed : report.state ≠ .failed) :
    (transport.retryFrom objects attempts (retries + 1) session).UsesBudget (retries + 1)
        objects ↔ report.results.any (·.state = .failed) = false := by
  unfold retryFrom
  simp only [ran]
  rw [if_neg completed]
  constructor
  · rintro ⟨_, other, last, replies, failed, _⟩
    cases replies
    refine Bool.eq_false_iff.mpr fun isFailed => ?_
    have spent : 1 = retries + 1 + 1 := failed isFailed
    omega
  · intro unfailed
    refine ⟨Nat.le_add_left 1 _, _, after, rfl, fun isFailed => ?_, names_sync ran⟩
    exact (Bool.false_ne_true (unfailed.symm.trans isFailed)).elim

/-- A run that has failed as a whole is followed by another one. -/
theorem retryFrom_of_failsWhole (network : transport.RaisesNetwork) (attempts : Nat)
    (fails : SyncEnd.FailsWhole (transport.sync objects session)) :
    transport.retryFrom objects attempts (retries + 1) session =
      (transport.retryFrom objects (attempts + 1) retries
        (leaves (transport.sync objects) session)).behind (transport.sync objects session) := by
  cases ran : transport.sync objects session with
  | ok report after =>
      have left : leaves (transport.sync objects) session = after := by
        unfold leaves
        rw [ran]
      rw [ran] at fails
      rw [left]
      conv => lhs; unfold retryFrom
      simp only [ran]
      exact if_pos fails
  | error failure after =>
      have left : leaves (transport.sync objects) session = after := by
        unfold leaves
        rw [ran]
      rcases raisesOnly_sync network objects session failure after ran with ⟨text, rfl⟩
      rw [left]
      conv => lhs; unfold retryFrom
      simp only [ran]

/-- The budget is used as it should be exactly where the loop sees every failure, and reports
its last one. -/
theorem usesBudget_retryFrom (network : transport.RaisesNetwork) (attempts : Nat) :
    (transport.retryFrom objects attempts retries session).UsesBudget retries objects ↔
      transport.Plain objects retries session := by
  induction retries generalizing attempts session with
  | zero =>
      have last : transport.Plain objects 0 session ↔
          (SyncEnd.Raises (transport.sync objects session) → objects = []) := by
        constructor
        · exact fun plain => plain.reported fun _ none => (Nat.not_lt_zero _ none).elim
        · exact fun reported =>
            ⟨fun _ none => (Nat.not_lt_zero _ none).elim, fun _ => reported⟩
      rw [last]
      cases ran : transport.sync objects session with
      | ok report after =>
          exact iff_of_true (usesBudget_last attempts ran) fun raises => raises.elim
      | error failure after =>
          rcases raisesOnly_sync network objects session failure after ran with ⟨text, rfl⟩
          rw [usesBudget_exhausted attempts ran]
          exact ⟨fun empty _ => empty, fun reported => reported trivial⟩
  | succ retries induction =>
      by_cases fails : SyncEnd.FailsWhole (transport.sync objects session)
      · rw [retryFrom_of_failsWhole network attempts fails, Retried.usesBudget_behind, induction,
          plain_of_failsWhole fails]
      · cases ran : transport.sync objects session with
        | ok report after =>
            rw [ran] at fails
            rw [usesBudget_completed attempts ran fails, plain_of_completed ran fails]
        | error failure after =>
            rw [ran] at fails
            exact (fails trivial).elim

theorem retrySync_usesBudget_iff {World : Type} (transport : SyncTransport World)
    (network : transport.RaisesNetwork) (maxRetries : Nat) (objects : List SyncObject)
    (session : Session World) :
    (transport.retrySync maxRetries objects session).UsesBudget maxRetries objects ↔
      transport.Plain objects maxRetries session :=
  usesBudget_retryFrom network 0

end SyncTransport

end Budget

/-! ## A script of failing calls -/

/-- A call of the transport, which fails as the script says. -/
def scriptedCall {Answer : Type} (answer : Answer) :
    EStateM TransportError (List Bool) Answer
  | true :: rest => .error (.network "down") rest
  | false :: rest => .ok answer rest
  | [] => .ok answer []

/-- An empty remote side under a script. -/
def scripted : SyncTransport (List Bool) where
  listVersions := scriptedCall Dict.empty
  push object := scriptedCall object.version
  pull _ := scriptedCall none

theorem scriptedCall_network {Answer : Type} (answer : Answer) (script : List Bool)
    (error : TransportError) (after : List Bool)
    (raises : scriptedCall answer script = .error error after) :
    ∃ text, error = .network text := by
  match script with
  | true :: rest =>
      cases raises
      exact ⟨_, rfl⟩
  | false :: rest => cases raises
  | [] => cases raises

theorem scripted_raisesNetwork : scripted.RaisesNetwork where
  listVersions := scriptedCall_network _
  push object := scriptedCall_network object.version
  pull _ := scriptedCall_network none

def taskObject (objectId : String) : SyncObject where
  objectId := objectId
  objectType := "task"
  version := "v1"
  contentHash := "h"

/-- The first listing fails, and the second run uploads the object. -/
theorem usesBudget_of_listing_failure :
    (scripted.retrySync 3 [taskObject "task:1"] (SyncTransport.newSession {} [true])).UsesBudget 3
      [taskObject "task:1"] := by
  apply (scripted.retrySync_usesBudget_iff scripted_raisesNetwork 3 [taskObject "task:1"]
    (SyncTransport.newSession {} [true])).mpr
  have fails : SyncEnd.FailsWhole
      (scripted.sync [taskObject "task:1"] (SyncTransport.newSession {} [true])) := rfl
  apply (SyncTransport.plain_of_failsWhole fails).mpr
  refine (SyncTransport.plain_of_completed rfl ?_).mpr ?_
  · decide
  · decide

/-- The second of two uploads fails, and no run is made for it. -/
theorem hidden_failure_not_retried :
    ¬ ∀ (objects : List SyncObject) (script : List Bool),
      (scripted.retrySync 3 objects (SyncTransport.newSession {} script)).UsesBudget 3 objects := by
  intro uses
  let objects := [taskObject "task:1", taskObject "task:2"]
  let session := SyncTransport.newSession {} [false, false, true]
  have told : (match (scripted.retrySync 3 objects session).reply with
      | .ok report _ => report.results.any (·.state = .failed)
      | .error _ _ => false) = true := by decide +kernel
  have single : (scripted.retrySync 3 objects session).runs.length = 1 := by decide +kernel
  rcases (uses objects [false, false, true]).reports with ⟨report, after, replies, spent, _⟩
  rw [show (scripted.retrySync 3 objects session).reply = .ok report after from replies] at told
  have all := spent told
  rw [show (scripted.retrySync 3 objects
    (SyncTransport.newSession {} [false, false, true])).runs.length = 1 from single] at all
  cases all

end Raphael.Cloud
