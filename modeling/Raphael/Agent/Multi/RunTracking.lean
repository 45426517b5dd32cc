import Raphael.Agent.Multi.AgentRuns
import Raphael.Foundation.SlotTable

/-! # The records of a `run_all`

A record is pending, in flight or done. A step keeps track of all of them, unless a cancelled
token stops the loop, and what comes back completed was executed. -/

namespace Raphael.Agent.Multi

open Foundation
open Persistence
open Agent.Executor

/-! ## A call serves its record -/

/-- The call runs this record, and what it brings back was executed. -/
def RunPhase.Serves (ran : List String) (recordId : String) : RunPhase → Prop
  | .looking id => id = recordId
  | .scoping record | .claiming record | .marking record => record.id = recordId
  | .executing record | .releasing record _ | .closing record _ | .summarizing record _ =>
      record.id = recordId ∧ recordId ∈ ran
  | .returned (.result _) => recordId ∈ ran
  | .returned _ => True

theorem RunPhase.Serves.mono {ran later : List String} {recordId : String}
    {phase : RunPhase} (serves : phase.Serves ran recordId)
    (kept : ∀ id ∈ ran, id ∈ later) : phase.Serves later recordId := by
  cases phase with
  | executing record => exact ⟨serves.1, kept _ serves.2⟩
  | releasing record result => exact ⟨serves.1, kept _ serves.2⟩
  | closing record result => exact ⟨serves.1, kept _ serves.2⟩
  | summarizing record result => exact ⟨serves.1, kept _ serves.2⟩
  | returned ending =>
      cases ending with
      | result outcome => exact kept _ serves
      | raised name text => trivial
      | interrupted => trivial
  | _ => exact serves

/-- A repository call goes on with the same record, and begins an executor with it. -/
theorem RunPhase.Serves.advance {now : Int} {tasks tasks' : SnapshotTable AgentTask}
    {agents agents' : AgentRegistry} {phase next : RunPhase} {ran : List String}
    {recordId : String} (serves : phase.Serves ran recordId)
    (advanced : phase.advance now tasks agents = some (tasks', agents', next)) :
    next.Serves (ran ++ (AgentRuns.begun next).map AgentTask.id) recordId := by
  have front : ∀ id ∈ ran, id ∈ ran ++ (AgentRuns.begun next).map AgentTask.id :=
    fun _ => List.mem_append_left _
  cases phase with
  | looking id =>
      simp only [RunPhase.advance] at advanced
      split at advanced
      · cases advanced
        trivial
      · next record found =>
          split at advanced <;> cases advanced
          · exact (SnapshotTable.id_of_get found).trans serves
          · trivial
  | scoping record =>
      simp only [RunPhase.advance] at advanced
      split at advanced <;> cases advanced
      · trivial
      · exact serves
  | claiming record =>
      simp only [RunPhase.advance, SnapshotTable.update_snd] at advanced
      cases advanced
      exact serves
  | marking record =>
      simp only [RunPhase.advance] at advanced
      split at advanced <;> cases advanced
      · trivial
      · refine ⟨serves, List.mem_append_right _ ?_⟩
        rw [← serves]
        exact List.mem_singleton_self record.id
  | executing record => cases advanced
  | releasing record result =>
      simp only [RunPhase.advance] at advanced
      split at advanced
      · cases advanced
        trivial
      · split at advanced <;> cases advanced
        · trivial
        · exact ⟨serves.1, front _ serves.2⟩
  | closing record result =>
      simp only [RunPhase.advance, SnapshotTable.update_snd] at advanced
      cases advanced
      exact ⟨serves.1, front _ serves.2⟩
  | summarizing record result =>
      simp only [RunPhase.advance] at advanced
      cases advanced
      exact front _ serves.2
  | returned ending => cases advanced

namespace AgentRuns

variable {Call : Type u} {Caller : Type v}

/-- The ids of the records whose plan was given to an executor. -/
def ran (state : AgentRuns Call Caller) : List String := state.executed.map AgentTask.id

variable [DecidableEq Call] [DecidableEq Caller] {maxWorkers : Nat}
  {state next : AgentRuns Call Caller} {action : RunAction Call Caller}

/-- What was executed stays so. -/
theorem ran_step (stepped : step maxWorkers state action = some next) :
    ∀ id ∈ state.ran, id ∈ next.ran := by
  intro id member
  cases step_sound stepped with
  | fansOut aside _ _ =>
      rw [ran, aside.executed]
      exact member
  | begins aside _ _ _ =>
      rw [ran, aside.executed]
      exact member
  | ends aside _ _ =>
      rw [ran, aside.executed]
      exact member
  | advances advanced =>
      unfold advance at advanced
      split at advanced
      · cases advanced
      · split at advanced
        · cases advanced
        · cases advanced
          rw [ran, List.map_append]
          exact List.mem_append_left _ member

/-- The calls that serve a record go on to serve it. -/
theorem serves_step (stepped : step maxWorkers state action = some next) {call : Call}
    {recordId : String}
    (serves : ∃ phase, state.phase call = some phase ∧ phase.Serves state.ran recordId) :
    ∃ phase, next.phase call = some phase ∧ phase.Serves next.ran recordId := by
  have kept := ran_step stepped
  rcases serves with ⟨phase, stands, serves⟩
  cases step_sound stepped with
  | fansOut aside phases _ =>
      exact ⟨phase, by rw [phases]; exact stands, serves.mono kept⟩
  | begins aside unused phases _ =>
      refine ⟨phase, ?_, serves.mono kept⟩
      rw [phases, Function.update_of_ne ?_]
      · exact stands
      · rintro rfl
        rw [unused] at stands
        cases stands
  | @ends other ending record aside stood phases =>
      by_cases same : call = other
      · subst same
        cases stood.symm.trans stands
        exact ⟨.releasing record (ending.executionResult record),
          by rw [phases, Function.update_self], serves.1, kept _ serves.2⟩
      · refine ⟨phase, ?_, serves.mono kept⟩
        rw [phases, Function.update_of_ne same]
        exact stands
  | @advances other now advanced =>
      unfold advance at advanced
      split at advanced
      · cases advanced
      · next current stood =>
          split at advanced
          · cases advanced
          · next tasks agents later moved =>
              cases advanced
              by_cases same : call = other
              · subst same
                cases stood.symm.trans stands
                refine ⟨later, by simp [setPhase], ?_⟩
                have served := serves.advance moved
                rw [ran, List.map_append]
                exact served
              · refine ⟨phase, ?_, serves.mono kept⟩
                simp only [setPhase, Function.update_of_ne same]
                exact stands

/-! ## The loop -/

/-- What a step does to the `run_all` of a caller. -/
inductive RunStepped (state next : AgentRuns Call Caller) (caller : Caller)
    (run : RunAll Call) : RunAction Call Caller → Prop
  | aside {action : RunAction Call Caller} (kept : next.fanOut caller = some run)
      (goesOn : action ≠ .stop caller) (other : ∀ call, action ≠ .collect caller call) :
      RunStepped state next caller run action
  | submit {call : Call} {recordId : String} {rest : List String}
      (unused : state.phase call = none) (pending : run.pending = recordId :: rest)
      (fanOut : next.fanOut caller = some { run with
        pending := rest
        inFlight := run.inFlight ++ [(call, recordId)] })
      (looks : next.phase call = some (.looking recordId)) :
      RunStepped state next caller run (.submit caller call)
  | stop (fanOut : next.fanOut caller = some { run with pending := [] }) :
      RunStepped state next caller run (.stop caller)
  | collect {call : Call} {ending : RunEnd} {recordId : String}
      (stands : state.phase call = some (.returned ending))
      (found : (call, recordId) ∈ run.inFlight)
      (fanOut : next.fanOut caller = (ending.collected state.tasks recordId).map
        fun result => { run with
          inFlight := run.inFlight.filter (·.1 ≠ call)
          results := run.results.set recordId result }) :
      RunStepped state next caller run (.collect caller call)

theorem fanOut_step {caller : Caller} {run : RunAll Call}
    (stepped : step maxWorkers state action = some next)
    (runs : state.fanOut caller = some run) : RunStepped state next caller run action := by
  have elsewhere : ∀ (other : Caller) (changed : Option (RunAll Call)), other ≠ caller →
      Function.update state.fanOut other changed caller = some run := by
    intro other changed differs
    rw [Function.update_of_ne (Ne.symm differs)]
    exact runs
  cases action with
  | runTask call recordId =>
      simp only [step] at stepped
      split at stepped <;> cases stepped
      exact .aside runs (by simp) (by simp)
  | advance call now =>
      simp only [step, advance] at stepped
      split at stepped
      · cases stepped
      · split at stepped <;> cases stepped
        exact .aside runs (by simp) (by simp)
  | executorEnds call ending =>
      simp only [step] at stepped
      split at stepped <;> cases stepped
      exact .aside runs (by simp) (by simp)
  | runAll other recordIds =>
      simp only [step] at stepped
      split at stepped
      · next unused =>
          cases stepped
          refine .aside (elsewhere other _ ?_) (by simp) (by simp)
          rintro rfl
          rw [unused] at runs
          cases runs
      · cases stepped
  | submit other call =>
      simp only [step] at stepped
      split at stepped
      · next held unused =>
          split at stepped
          · cases stepped
          · next recordId rest pending =>
              split at stepped <;> cases stepped
              by_cases same : other = caller
              · subst same
                cases held.symm.trans runs
                exact .submit unused pending (Function.update_self ..)
                  (Function.update_self ..)
              · exact .aside (elsewhere other _ same) (by simp) (by simp)
      · cases stepped
  | stop other =>
      simp only [step] at stepped
      split at stepped
      · next held =>
          cases stepped
          by_cases same : other = caller
          · subst same
            cases held.symm.trans runs
            exact .stop (Function.update_self ..)
          · exact .aside (elsewhere other _ same) (by simpa using same) (by simp)
      · cases stepped
  | collect other call =>
      simp only [step] at stepped
      split at stepped
      · next held stands =>
          split at stepped
          · cases stepped
          · next holder recordId found =>
              cases stepped
              by_cases same : other = caller
              · subst same
                cases held.symm.trans runs
                have own : holder = call := by simpa using List.find?_some found
                subst own
                exact .collect stands (List.mem_of_find?_eq_some found)
                  (Function.update_self ..)
              · exact .aside (elsewhere other _ same) (by simp) (by simp [same])
      · cases stepped

/-- Only `run_all` begins one. -/
theorem fanOut_none_step {caller : Caller}
    (stepped : step maxWorkers state action = some next)
    (unused : state.fanOut caller = none)
    (other : ∀ recordIds, action ≠ .runAll caller recordIds) : next.fanOut caller = none := by
  have elsewhere : ∀ (other : Caller) (changed : Option (RunAll Call)), other ≠ caller →
      Function.update state.fanOut other changed caller = none := by
    intro other changed differs
    rw [Function.update_of_ne (Ne.symm differs)]
    exact unused
  have apart : ∀ {other : Caller} {run : RunAll Call}, state.fanOut other = some run →
      other ≠ caller := by
    rintro other run held rfl
    rw [unused] at held
    cases held
  cases action with
  | runTask call recordId =>
      simp only [step] at stepped
      split at stepped <;> cases stepped
      exact unused
  | advance call now =>
      simp only [step, advance] at stepped
      split at stepped
      · cases stepped
      · split at stepped <;> cases stepped
        exact unused
  | executorEnds call ending =>
      simp only [step] at stepped
      split at stepped <;> cases stepped
      exact unused
  | runAll caller' recordIds =>
      simp only [step] at stepped
      split at stepped <;> cases stepped
      refine elsewhere caller' _ ?_
      rintro rfl
      exact other recordIds rfl
  | submit caller' call =>
      simp only [step] at stepped
      split at stepped
      · next held _ =>
          split at stepped
          · cases stepped
          · split at stepped <;> cases stepped
            exact elsewhere caller' _ (apart held)
      · cases stepped
  | stop caller' =>
      simp only [step] at stepped
      split at stepped
      · next held =>
          cases stepped
          exact elsewhere caller' _ (apart held)
      · cases stepped
  | collect caller' call =>
      simp only [step] at stepped
      split at stepped
      · next held _ =>
          split at stepped <;> cases stepped
          exact elsewhere caller' _ (apart held)
      · cases stepped

end AgentRuns

/-- The records that are pending, in flight or done. -/
def RunAll.known {Call : Type u} (run : RunAll Call) : List String :=
  run.pending ++ (run.inFlight.map Prod.snd ++ run.results.entries.map Prod.fst)

/-- One entry is taken out of a list in which its key stands once. -/
theorem perm_filter_of_mem {Key : Type u} {Value : Type v} [DecidableEq Key]
    {entries : List (Key × Value)} {key : Key} {value : Value}
    (distinct : (entries.map Prod.fst).Nodup) (found : (key, value) ∈ entries) :
    (entries.map Prod.snd).Perm (value :: (entries.filter (·.1 ≠ key)).map Prod.snd) := by
  rcases List.append_of_mem found with ⟨before, behind, rfl⟩
  rw [List.map_append, List.map_cons, List.nodup_middle, List.nodup_cons] at distinct
  have apart : ∀ entry ∈ before ++ behind, decide (entry.1 ≠ key) = true := by
    intro entry member
    rw [decide_eq_true_eq]
    intro same
    refine distinct.1 ?_
    rw [← List.map_append, ← same]
    exact List.mem_map.mpr ⟨entry, member, rfl⟩
  have kept : (before ++ (key, value) :: behind).filter (·.1 ≠ key) = before ++ behind := by
    rw [List.filter_append, List.filter_cons_of_neg (by simp), ← List.filter_append]
    exact List.filter_eq_self.mpr apart
  rw [kept, List.map_append, List.map_cons, List.map_append]
  exact List.perm_middle

namespace AgentRuns

variable {Call : Type u} {Caller : Type v}

/-- Every record stands in one place, every call in flight serves its record, and what has
completed was executed. -/
structure Tracks (state : AgentRuns Call Caller) (run : RunAll Call) : Prop where
  distinct : run.known.Nodup
  calls : (run.inFlight.map Prod.fst).Nodup
  serves : ∀ entry ∈ run.inFlight,
    ∃ phase, state.phase entry.1 = some phase ∧ phase.Serves state.ran entry.2
  ran : ∀ recordId result, run.results.get recordId = some result →
    result.status = .completed → recordId ∈ state.ran

variable [DecidableEq Call] {maxWorkers : Nat} {state next : AgentRuns Call Caller}
  {action : RunAction Call Caller} {caller : Caller} {run after : RunAll Call}

/-- No step finds a new record. -/
theorem known_subset (stepped : RunStepped state next caller run action)
    (runs : next.fanOut caller = some after) : ∀ id ∈ after.known, id ∈ run.known := by
  intro id member
  cases stepped with
  | aside kept _ _ =>
      cases kept.symm.trans runs
      exact member
  | submit unused pending fanOut looks =>
      cases fanOut.symm.trans runs
      simp only [RunAll.known, List.map_append, List.mem_append, List.map_cons, List.map_nil,
        pending, List.mem_cons] at member ⊢
      tauto
  | stop fanOut =>
      cases fanOut.symm.trans runs
      exact List.mem_append_right _ member
  | @collect call ending recordId stands found fanOut =>
      rw [runs] at fanOut
      rcases Option.map_eq_some_iff.mp fanOut.symm with ⟨result, _, rfl⟩
      have inFlight : recordId ∈ run.inFlight.map Prod.snd := List.mem_map_of_mem found
      simp only [RunAll.known, Dict.keys_set, List.mem_append] at member ⊢
      rcases member with pending | flying | done
      · exact Or.inl pending
      · exact Or.inr (Or.inl (List.map_subset _ (List.filter_subset_self _) flying))
      · split at done
        · exact Or.inr (Or.inr done)
        · rcases List.mem_append.mp done with done | own
          · exact Or.inr (Or.inr done)
          · cases List.mem_singleton.mp own
            exact Or.inr (Or.inl inFlight)

/-- A record that completes was executed. -/
theorem ran_of_collected {tasks : SnapshotTable AgentTask} {recordId : String}
    {ending : RunEnd} {result : ExecutionResult} {ran : List String}
    (collected : ending.collected tasks recordId = some result)
    (completed : result.status = .completed)
    (serves : (RunPhase.returned ending).Serves ran recordId) : recordId ∈ ran := by
  cases ending with
  | result outcome => exact serves
  | raised name text =>
      cases collected
      cases completed
  | interrupted => cases collected

variable [DecidableEq Caller]

/-- A step keeps track of the records, and loses none unless the token stops the loop. -/
theorem Tracks.step (tracks : state.Tracks run)
    (stepped : AgentRuns.step maxWorkers state action = some next)
    (runs : state.fanOut caller = some run) (later : next.fanOut caller = some after) :
    next.Tracks after ∧ (action ≠ .stop caller → after.known.Perm run.known) := by
  have kept := ran_step stepped
  have serves : ∀ entry ∈ run.inFlight,
      ∃ phase, next.phase entry.1 = some phase ∧ phase.Serves next.ran entry.2 :=
    fun entry member => serves_step stepped (tracks.serves entry member)
  have ran : ∀ recordId result, run.results.get recordId = some result →
      result.status = .completed → recordId ∈ next.ran :=
    fun recordId result found completed => kept _ (tracks.ran recordId result found completed)
  cases fanOut_step stepped runs with
  | aside same _ _ =>
      cases same.symm.trans later
      exact ⟨⟨tracks.distinct, tracks.calls, serves, ran⟩, fun _ => .refl _⟩
  | @submit call recordId rest unused pending fanOut looks =>
      cases fanOut.symm.trans later
      have moved : (rest ++ run.inFlight.map Prod.snd ++
          recordId :: run.results.entries.map Prod.fst).Perm (recordId ::
            (rest ++ run.inFlight.map Prod.snd ++ run.results.entries.map Prod.fst)) :=
        List.perm_middle
      have same : RunAll.known { run with
          pending := rest
          inFlight := run.inFlight ++ [(call, recordId)] } |>.Perm run.known := by
        simpa [RunAll.known, pending] using moved
      refine ⟨⟨same.nodup_iff.mpr tracks.distinct, ?_, ?_, ran⟩, fun _ => same⟩
      · rw [List.map_append, List.map_cons, List.map_nil]
        refine tracks.calls.append (List.nodup_singleton call) ?_
        rw [List.disjoint_singleton]
        intro member
        rcases List.mem_map.mp member with ⟨entry, inside, rfl⟩
        rcases tracks.serves entry inside with ⟨phase, stands, _⟩
        rw [unused] at stands
        cases stands
      · intro entry member
        rcases List.mem_append.mp member with inside | own
        · exact serves entry inside
        · cases List.mem_singleton.mp own
          exact ⟨.looking recordId, looks, rfl⟩
  | stop fanOut =>
      cases fanOut.symm.trans later
      have fewer : RunAll.known { run with pending := [] } |>.Sublist run.known :=
        List.sublist_append_right _ _
      exact ⟨⟨tracks.distinct.sublist fewer, tracks.calls, serves, ran⟩,
        fun other => absurd rfl other⟩
  | @collect call ending recordId stands found fanOut =>
      rw [later] at fanOut
      rcases Option.map_eq_some_iff.mp fanOut.symm with ⟨result, collected, rfl⟩
      have taken := perm_filter_of_mem tracks.calls found
      have absent : recordId ∉ run.results.entries.map Prod.fst := by
        have apart := (List.nodup_append.mp (List.nodup_append.mp tracks.distinct).2.1).2.2
        intro done
        exact apart recordId (List.mem_map_of_mem found) recordId done rfl
      have same : RunAll.known { run with
          inFlight := run.inFlight.filter (·.1 ≠ call)
          results := run.results.set recordId result } |>.Perm run.known := by
        refine List.Perm.append_left run.pending ?_
        rw [Dict.keys_set, if_neg absent]
        refine List.Perm.trans ?_ (taken.append_right _).symm
        rw [← List.append_assoc]
        exact List.perm_append_singleton _ _
      refine ⟨⟨same.nodup_iff.mpr tracks.distinct, ?_, ?_, ?_⟩, fun _ => same⟩
      · exact tracks.calls.sublist (List.filter_sublist.map Prod.fst)
      · exact fun entry member => serves entry (List.mem_of_mem_filter member)
      · intro other outcome read completed
        rw [Dict.get_set] at read
        split at read
        · next own =>
            cases read
            rcases tracks.serves (call, recordId) found with ⟨phase, stood, served⟩
            cases stands.symm.trans stood
            exact own ▸ kept _ (ran_of_collected collected completed served)
        · exact ran other outcome read completed

/-- A stored record stays stored. -/
theorem stored_step (stepped : AgentRuns.step maxWorkers state action = some next)
    {recordId : String} (stored : (state.tasks.get recordId).isSome) :
    (next.tasks.get recordId).isSome := by
  have updated : ∀ (now : Int) (record : AgentTask),
      ((state.tasks.update now record).1.get recordId).isSome := by
    intro now record
    rw [SnapshotTable.get_update]
    split
    · rfl
    · exact stored
  cases step_sound stepped with
  | fansOut aside _ _ => rw [aside.tasks]; exact stored
  | begins aside _ _ _ => rw [aside.tasks]; exact stored
  | ends aside _ _ => rw [aside.tasks]; exact stored
  | advances advanced =>
      unfold advance at advanced
      split at advanced
      · cases advanced
      · split at advanced
        · cases advanced
        · next moved =>
            cases advanced
            cases RunPhase.advance_sound moved with
            | claim written => exact updated _ _
            | close same closed => exact updated _ _
            | summarize => exact updated _ _
            | _ => exact stored

end AgentRuns

end Raphael.Agent.Multi
