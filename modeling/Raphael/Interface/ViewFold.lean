import Raphael.Foundation.FallibleFold
import Raphael.Foundation.SecondPass
import Raphael.Interface.Views

/-! # The cells of a view

What an event makes of a view falls apart into cells: the state of the task, one step, one
call, one agent. Each cell is a fold of its own over the events of the task. -/

namespace Raphael.Interface.Views.EventAdapter

open Core Foundation

/-! ## Plans that are accepted -/

def idsFrom : Nat → List Json → Except Error (List String)
  | _, [] => .ok []
  | index, step :: rest => do
      let id ← plannedId index step
      let others ← idsFrom (index + 1) rest
      return id :: others

/-- The ids of the steps that a plan names. -/
def planIds (payload : Fields) : Except Error (List String) := do
  let items ← iterated ((Json.lookup "steps" payload).getD (.arr []))
  idsFrom 0 items

/-- A plan lists its steps. -/
def Lists (event : Event) : Prop :=
  event.eventType = .planCreated → ∃ ids, planIds event.payload = .ok ids

/-- Only a plan can raise, and only that of a task. -/
def Accepted (event : Event) : Prop := event.taskId ≠ "" → Lists event

/-- The steps that an event plans. -/
def named (event : Event) : List String :=
  if event.eventType = .planCreated then (planIds event.payload).toOption.getD [] else []

theorem planFrom_of_ok {index : Nat} {items : List Json} {ids : List String}
    (listed : idsFrom index items = .ok ids) (steps : String → Option StepView) :
    planFrom steps index items = (.ok (), ids.foldl
      (fun steps id => Function.update steps id (some { label := id })) steps) := by
  induction items generalizing index ids steps with
  | nil =>
      cases listed
      rfl
  | cons step rest induction =>
      unfold idsFrom at listed
      unfold planFrom
      rcases except_bind_eq_ok.mp listed with ⟨id, first, listed⟩
      rcases except_bind_eq_ok.mp listed with ⟨later, others, listed⟩
      obtain rfl := Except.ok.inj listed
      rw [first]
      exact induction others _

theorem planFrom_of_error {index : Nat} {items : List Json} {error : Error}
    (raised : idsFrom index items = .error error) (steps : String → Option StepView) :
    (planFrom steps index items).1 = .error error := by
  induction items generalizing index steps with
  | nil => cases raised
  | cons step rest induction =>
      unfold idsFrom at raised
      unfold planFrom
      cases first : plannedId index step with
      | error fault =>
          rw [first] at raised
          cases raised
          rfl
      | ok id =>
          rw [first] at raised
          cases others : idsFrom (index + 1) rest with
          | error fault =>
              simp only [others, bind, Except.bind] at raised
              cases raised
              exact induction others _
          | ok later =>
              simp only [others, bind, Except.bind] at raised
              cases raised

theorem foldl_plan_apply (ids : List String) (steps : String → Option StepView)
    (id : String) :
    ids.foldl (fun steps id => Function.update steps id (some { label := id })) steps id =
      if id ∈ ids then some { label := id } else steps id := by
  induction ids generalizing steps with
  | nil => rfl
  | cons first rest induction =>
      rw [List.foldl_cons, induction]
      by_cases later : id ∈ rest
      · rw [if_pos later, if_pos (List.mem_cons_of_mem first later)]
      · rw [if_neg later]
        by_cases same : id = first
        · subst same
          rw [Function.update_self, if_pos List.mem_cons_self]
        · rw [Function.update_of_ne same, if_neg]
          exact fun member => (List.mem_cons.mp member).elim same later

theorem plan_of_ok {payload : Fields} {ids : List String}
    (listed : planIds payload = .ok ids) (steps : String → Option StepView) :
    plan steps payload = (.ok (), ids.foldl
      (fun steps id => Function.update steps id (some { label := id })) steps) := by
  unfold planIds at listed
  unfold plan
  rcases except_bind_eq_ok.mp listed with ⟨items, through, listed⟩
  rw [through]
  exact planFrom_of_ok listed steps

theorem plan_of_error {payload : Fields} {error : Error}
    (raised : planIds payload = .error error) (steps : String → Option StepView) :
    (plan steps payload).1 = .error error := by
  unfold planIds at raised
  unfold plan
  cases through : iterated ((Json.lookup "steps" payload).getD (.arr [])) with
  | error fault =>
      rw [through] at raised
      cases raised
      rfl
  | ok items =>
      rw [through] at raised
      exact planFrom_of_error raised steps

/-! ## The cells -/

/-- The state that an event gives its step. -/
def stepState : EventType → Option StepState
  | .stepReady => some .ready
  | .stepStarted => some .running
  | .stepCompleted => some .succeeded
  | .stepFailed => some .failed
  | .stepTimedOut => some .timedOut
  | .stepCancelled => some .cancelled
  | .stepSkipped => some .skipped
  | _ => none

def stepCell (id : String) (event : Event) (shown : Option StepView) : Option StepView :=
  if id ∈ named event then some { label := id }
  else if id = stepIdOf event.payload then
    (stepState event.eventType).elim shown fun state => some { shown.getD {} with state }
  else shown

def phaseCell (event : Event) (state : TaskState) : TaskState :=
  match event.eventType with
  | .taskCreated => .created
  | .stepFailed | .stepTimedOut => .failed
  | .recoveryStarted => .recovering
  | .graphStarted =>
      if state ∈ [.completed, .failed, .cancelled] then state else .executing
  | .graphCompleted =>
      if state ∈ [.failed, .cancelled, .recovering] then state else .completed
  | _ => state

def verificationCell (event : Event) (phase : VerificationPhase) : VerificationPhase :=
  match event.eventType with
  | .verificationStarted => .running
  | .verificationPassed => .passed
  | .verificationFailed => .failed
  | .verificationInconclusive => .inconclusive
  | .verificationError => .error
  | _ => phase

def recoveryCell (event : Event) (text : String) : String :=
  match event.eventType with
  | .recoveryStarted => "RUNNING"
  | .recoveryDecided => fieldText event.payload "action" "DECIDED"
  | .recoveryExhausted => "EXHAUSTED"
  | _ => text

def agentCell (id : String) (event : Event) (shown : Option AgentView) : Option AgentView :=
  if agentIdOf event.payload = "" then shown
  else if id = agentIdOf event.payload then
    match event.eventType with
    | .agentStarted => some { status := .running, taskId := event.taskId }
    | .agentCompleted =>
        let success := ((Json.lookup "success" event.payload).map Json.truthy).getD false
        shown.map fun agent =>
          { agent with status := if success then .completed else .failed }
    | _ => shown
  else shown

/-- What is shown of a call, and when it was started. -/
structure CallView where
  activity : Option ToolActivity := none
  permission : Option PermissionView := none
  started : Option Int := none

namespace CallView

def resolve (permission : Option PermissionView) : Option PermissionView :=
  permission.map fun entry =>
    if entry.decided then entry else { entry with decided := true, granted := true }

def request (shown : CallView) (tool : String) : CallView :=
  { shown with
    activity := some (shown.activity.getD { tool })
    permission := some (shown.permission.getD { tool }) }

def start (shown : CallView) (now : Int) : CallView :=
  { shown with
    activity := some { shown.activity.getD {} with state := .running }
    started := some (shown.started.getD now) }

def finish (shown : CallView) (state : ToolState) (now : Int) : CallView where
  activity := some { shown.activity.getD {} with
    state
    duration := shown.started.map fun started => max 0 (now - started) }
  permission := resolve shown.permission
  started := none

def grant (shown : CallView) (tool : String) : CallView :=
  { shown with
    permission := some { shown.permission.getD { tool } with
      decided := true
      granted := true } }

def deny (shown : CallView) (tool reason : String) : CallView :=
  { shown with
    activity := shown.activity.map fun activity => { activity with state := .denied }
    permission := some { shown.permission.getD { tool } with
      decided := true
      granted := false
      reason } }

/-- What an event of some kind changes. -/
def change (kind : EventType) (event : Event) (shown : CallView) : CallView :=
  let tool := toolOf event.payload
  match kind with
  | .toolRequested => shown.request tool
  | .toolStarted => shown.start event.createdAt
  | .toolCompleted => shown.finish .completed event.createdAt
  | .toolFailed => shown.finish .failed event.createdAt
  | .permissionGranted => shown.grant tool
  | .permissionDenied => shown.deny tool (fieldText event.payload "reason" "")
  | _ => shown

end CallView

def callStep (event : Event) (shown : CallView) : CallView :=
  shown.change event.eventType event

def callCell (id : String) (event : Event) (shown : CallView) : CallView :=
  if id = callIdOf event.payload then callStep event shown else shown

def callView (view : TaskView) (clock : ToolClock) (id : String) : CallView where
  activity := view.tools id
  permission := view.permissions id
  started := clock id

/-! ## One event in its cells -/

variable {event : Event} {view : TaskView} {clock : ToolClock} {id : String}

theorem fold_fst (lists : Lists event) : (fold event view clock).1 = .ok () := by
  unfold fold
  cases kind : event.eventType with
  | planCreated =>
      rcases lists kind with ⟨ids, listed⟩
      exact congrArg Prod.fst (plan_of_ok listed view.steps)
  | _ => rfl

theorem fold_error (unlisted : ¬ Lists event) :
    ∃ error, (fold event view clock).1 = .error error := by
  rcases not_forall.mp unlisted with ⟨kind, none⟩
  cases listed : planIds event.payload with
  | ok ids => exact absurd ⟨ids, listed⟩ none
  | error error =>
      unfold fold
      rw [kind]
      exact ⟨error, plan_of_error listed view.steps⟩

theorem steps_step (view : TaskView) (payload : Fields) (state : StepState) (id : String) :
    (view.step payload state).steps id =
      if id = stepIdOf payload then some { (view.steps id).getD {} with state }
      else view.steps id :=
  amendSlot_apply view.steps (stepIdOf payload) {} (fun node => { node with state }) id

theorem stepCell_of_ne {shown : Option StepView} (other : event.eventType ≠ .planCreated) :
    stepCell id event shown =
      if id = stepIdOf event.payload then
        (stepState event.eventType).elim shown fun state =>
          some { shown.getD {} with state }
      else shown := by
  unfold stepCell named
  rw [if_neg other, if_neg List.not_mem_nil]

theorem fold_steps (lists : Lists event) :
    (fold event view clock).2.1.steps id = stepCell id event (view.steps id) := by
  cases kind : event.eventType with
  | planCreated =>
      rcases lists kind with ⟨ids, listed⟩
      unfold fold stepCell named
      simp only [kind, if_true, plan_of_ok listed, foldl_plan_apply, listed, Except.toOption,
         Option.getD_some, stepState, Option.elim_none, ite_self]
  | stepReady | stepStarted | stepCompleted | stepFailed | stepTimedOut | stepCancelled
  | stepSkipped =>
      rw [stepCell_of_ne (by rw [kind]; decide), fold, kind]
      exact steps_step view event.payload _ id
  | _ =>
      rw [stepCell_of_ne (by rw [kind]; decide), fold, kind]
      exact (ite_self _).symm

theorem fold_state : (fold event view clock).2.1.state = phaseCell event view.state := by
  unfold fold phaseCell
  cases event.eventType <;> rfl

theorem fold_verification :
    (fold event view clock).2.1.verification = verificationCell event view.verification := by
  unfold fold verificationCell
  cases event.eventType <;> rfl

theorem fold_recovery :
    (fold event view clock).2.1.recovery = recoveryCell event view.recovery := by
  unfold fold recoveryCell
  cases event.eventType <;> rfl

theorem fold_agents :
    (fold event view clock).2.1.agents id = agentCell id event (view.agents id) := by
  unfold agentCell fold
  by_cases blank : agentIdOf event.payload = ""
  · rw [if_pos blank]
    cases event.eventType with
    | agentStarted => exact congrFun (if_pos blank) id
    | agentCompleted => exact congrFun (if_pos blank) id
    | _ => rfl
  · rw [if_neg blank]
    cases event.eventType with
    | agentStarted => exact (congrFun (if_neg blank) id).trans (amendSlot_apply ..)
    | agentCompleted => exact (congrFun (if_neg blank) id).trans (reviseSlot_apply ..)
    | _ => exact (ite_self _).symm

/-- What the tables of the calls show after an event. -/
theorem fold_call :
    callView (fold event view clock).2.1 (fold event view clock).2.2 id =
      callCell id event (callView view clock id) := by
  unfold callCell callStep CallView.change fold
  cases event.eventType with
  | toolRequested | toolStarted | toolCompleted | toolFailed | permissionGranted
  | permissionDenied =>
      simp only [callView, TaskView.requestTool, TaskView.tool, TaskView.endTool,
        TaskView.pendingPermission, TaskView.resolvePermission, TaskView.denyPermission,
        amendSlot_apply, reviseSlot_apply, Function.update_apply]
      split
      · next mine =>
          subst mine
          rfl
      · rfl
  | _ => exact (ite_self _).symm

/-! ## Streams of events -/

variable {adapter : EventAdapter} {events : List Event} {taskId : String}

def viewOf (adapter : EventAdapter) (taskId : String) : TaskView :=
  (adapter.tasks taskId).getD {}

def clockOf (adapter : EventAdapter) (taskId : String) : ToolClock :=
  (adapter.clocks taskId).getD fun _ => none

def ofTask (taskId : String) (events : List Event) : List Event :=
  events.filter fun event => event.taskId = taskId

theorem ingest_blank (blank : event.taskId = "") :
    adapter.ingest event = (.ok (), adapter) := if_pos blank

theorem ingest_fst_ok (adapter : EventAdapter) :
    (adapter.ingest event).1 = .ok () ↔ Accepted event := by
  by_cases blank : event.taskId = ""
  · rw [ingest_blank blank]
    exact iff_of_true rfl fun ofTask => absurd blank ofTask
  · have folds : (adapter.ingest event).1 =
        (fold event (adapter.viewOf event.taskId) (adapter.clockOf event.taskId)).1 :=
      congrArg Prod.fst (if_neg blank)
    rw [folds]
    by_cases lists : Lists event
    · exact iff_of_true (fold_fst lists) fun _ => lists
    · refine iff_of_false (fun returns => ?_) fun accepted => lists (accepted blank)
      rcases fold_error lists with ⟨error, raised⟩
      cases raised.symm.trans returns

theorem ingest_of_ne (adapter : EventAdapter) (other : taskId ≠ event.taskId) :
    (adapter.ingest event).2.tasks taskId = adapter.tasks taskId ∧
      (adapter.ingest event).2.clocks taskId = adapter.clocks taskId := by
  unfold ingest
  split
  · exact ⟨rfl, rfl⟩
  · exact ⟨Function.update_of_ne other .., Function.update_of_ne other ..⟩

theorem ingest_own (adapter : EventAdapter) (ofTask : event.taskId ≠ "") :
    (adapter.ingest event).2.tasks event.taskId =
        some (fold event (adapter.viewOf event.taskId) (adapter.clockOf event.taskId)).2.1 ∧
      (adapter.ingest event).2.clocks event.taskId =
        some (fold event (adapter.viewOf event.taskId)
          (adapter.clockOf event.taskId)).2.2 := by
  unfold ingest
  rw [if_neg ofTask]
  exact ⟨Function.update_self .., Function.update_self ..⟩

theorem ingestAll_cons (accepted : Accepted event) :
    ingestAll (event :: events) adapter = ingestAll events (adapter.ingest event).2 := by
  have returns := (ingest_fst_ok adapter).mpr accepted
  rw [ingestAll]
  generalize adapter.ingest event = answered at returns ⊢
  rcases answered with ⟨answer, next⟩
  cases returns
  rfl

theorem ingestAll_fst_ok :
    (ingestAll events adapter).1 = .ok () ↔ ∀ event ∈ events, Accepted event := by
  induction events generalizing adapter with
  | nil => exact iff_of_true rfl fun _ none => absurd none List.not_mem_nil
  | cons event rest induction =>
      rw [List.forall_mem_cons]
      by_cases accepted : Accepted event
      · rw [ingestAll_cons accepted, induction, and_iff_right accepted]
      · refine iff_of_false (fun returns => ?_) fun both => accepted both.1
        have raises : ∃ error, (ingestAll (event :: rest) adapter).1 = .error error := by
          have refused := (ingest_fst_ok adapter).not.mpr accepted
          rw [ingestAll]
          generalize adapter.ingest event = answered at refused ⊢
          rcases answered with ⟨answer, next⟩
          cases answer with
          | ok nothing => exact absurd rfl refused
          | error error => exact ⟨error, rfl⟩
        rcases raises with ⟨error, raised⟩
        cases raised.symm.trans returns

/-- What is read of a view moves with the events by itself. -/
def Follows {Cell : Type} (read : TaskView → ToolClock → Cell)
    (cell : Event → Cell → Cell) : Prop :=
  ∀ event view clock, Lists event →
    read (fold event view clock).2.1 (fold event view clock).2.2 =
      cell event (read view clock)

theorem follows_state : Follows (fun view _ => view.state) phaseCell :=
  fun _ _ _ _ => fold_state

theorem follows_steps (id : String) : Follows (fun view _ => view.steps id) (stepCell id) :=
  fun _ _ _ lists => fold_steps lists

theorem follows_agents (id : String) : Follows (fun view _ => view.agents id) (agentCell id) :=
  fun _ _ _ _ => fold_agents

theorem follows_verification : Follows (fun view _ => view.verification) verificationCell :=
  fun _ _ _ _ => fold_verification

theorem follows_recovery : Follows (fun view _ => view.recovery) recoveryCell :=
  fun _ _ _ _ => fold_recovery

theorem follows_call (id : String) :
    Follows (fun view clock => callView view clock id) (callCell id) :=
  fun _ _ _ _ => fold_call

/-- A cell is a fold over the events of its task. -/
theorem read_ingestAll {Cell : Type} {read : TaskView → ToolClock → Cell}
    {cell : Event → Cell → Cell} (follows : Follows read cell) (named : taskId ≠ "")
    (accepted : ∀ event ∈ events, Accepted event) (adapter : EventAdapter) :
    read ((ingestAll events adapter).2.viewOf taskId)
        ((ingestAll events adapter).2.clockOf taskId) =
      pass cell (ofTask taskId events)
        (read (adapter.viewOf taskId) (adapter.clockOf taskId)) := by
  induction events generalizing adapter with
  | nil => rfl
  | cons event rest induction =>
      rw [List.forall_mem_cons] at accepted
      rw [ingestAll_cons accepted.1, induction accepted.2, ofTask, ofTask, List.filter_cons]
      by_cases mine : event.taskId = taskId
      · subst mine
        rcases ingest_own adapter named with ⟨shown, ticks⟩
        rw [if_pos (decide_eq_true rfl), pass_cons, viewOf, clockOf, shown, ticks,
          Option.getD_some, Option.getD_some, follows _ _ _ (accepted.1 named)]
      · rcases ingest_of_ne adapter (Ne.symm mine) with ⟨shown, ticks⟩
        rw [if_neg (by simpa using mine), viewOf, clockOf, shown, ticks]
        rfl

/-- Events of other tasks, or of none, leave a task alone. -/
theorem tasks_ingestAll_of_quiet (accepted : ∀ event ∈ events, Accepted event)
    (quiet : taskId = "" ∨ ofTask taskId events = []) (adapter : EventAdapter) :
    (ingestAll events adapter).2.tasks taskId = adapter.tasks taskId := by
  induction events generalizing adapter with
  | nil => rfl
  | cons event rest induction =>
      rw [List.forall_mem_cons] at accepted
      rw [ofTask, List.filter_cons] at quiet
      by_cases mine : event.taskId = taskId
      · rw [if_pos (by simpa using mine)] at quiet
        have blank : taskId = "" := quiet.resolve_right (List.cons_ne_nil _ _)
        rw [ingestAll_cons accepted.1, ingest_blank (mine.trans blank)]
        exact induction accepted.2 (.inl blank) adapter
      · rw [if_neg (by simpa using mine)] at quiet
        rw [ingestAll_cons accepted.1, induction accepted.2 quiet]
        exact (ingest_of_ne adapter (Ne.symm mine)).1

theorem isSome_ingest (known : (adapter.tasks taskId).isSome = true) :
    ((adapter.ingest event).2.tasks taskId).isSome = true := by
  by_cases blank : event.taskId = ""
  · rwa [ingest_blank blank]
  · by_cases mine : taskId = event.taskId
    · subst mine
      rw [(ingest_own adapter blank).1]
      rfl
    · rwa [(ingest_of_ne adapter mine).1]

theorem isSome_ingestAll (accepted : ∀ event ∈ events, Accepted event)
    (known : (adapter.tasks taskId).isSome = true) :
    ((ingestAll events adapter).2.tasks taskId).isSome = true := by
  induction events generalizing adapter with
  | nil => exact known
  | cons event rest induction =>
      rw [List.forall_mem_cons] at accepted
      rw [ingestAll_cons accepted.1]
      exact induction accepted.2 (isSome_ingest known)

/-- A task has a view behind its first event. -/
theorem isSome_of_event (accepted : ∀ event ∈ events, Accepted event) (named : taskId ≠ "")
    (some : ofTask taskId events ≠ []) :
    ((ingestAll events adapter).2.tasks taskId).isSome = true := by
  induction events generalizing adapter with
  | nil => exact absurd rfl some
  | cons event rest induction =>
      rw [List.forall_mem_cons] at accepted
      rw [ingestAll_cons accepted.1]
      by_cases mine : event.taskId = taskId
      · subst mine
        apply isSome_ingestAll accepted.2
        rw [(ingest_own adapter named).1]
        rfl
      · rw [ofTask, List.filter_cons, if_neg (by simpa using mine)] at some
        exact induction accepted.2 some

/-! ## Stores -/

variable {lastSeen mark : Int} {entries : Numbered}

/-- What has been seen is passed over. -/
theorem ingestNumbered_seen (seen : ∀ entry ∈ entries, entry.1 ≤ lastSeen) :
    ingestNumbered lastSeen entries mark adapter = (.ok mark, adapter) := by
  induction entries with
  | nil => rfl
  | cons entry rest induction =>
      rw [List.forall_mem_cons] at seen
      rw [ingestNumbered, if_pos seen.1]
      exact induction seen.2

/-- What is new is ingested, and the mark is the last number. -/
theorem ingestNumbered_new (new : ∀ entry ∈ entries, lastSeen < entry.1) :
    ingestNumbered lastSeen entries mark adapter =
      ((ingestAll (entries.map (·.2)) adapter).1.map fun _ =>
          ((entries.map (·.1)).getLast?).getD mark,
        (ingestAll (entries.map (·.2)) adapter).2) := by
  induction entries generalizing mark adapter with
  | nil => rfl
  | cons entry rest induction =>
      rw [List.forall_mem_cons] at new
      rw [ingestNumbered, if_neg (not_le.mpr new.1)]
      simp only [List.map_cons, ingestAll]
      generalize adapter.ingest entry.2 = answered
      rcases answered with ⟨answer, next⟩
      cases answer with
      | error error => rfl
      | ok nothing =>
          simp only [induction new.2, List.getLast?_cons, Option.getD_some]

theorem ingestNumbered_append (front back : Numbered) (mark : Int) (adapter : EventAdapter) :
    ingestNumbered lastSeen (front ++ back) mark adapter =
      match ingestNumbered lastSeen front mark adapter with
      | (.ok reached, next) => ingestNumbered lastSeen back reached next
      | (.error error, next) => (.error error, next) := by
  induction front generalizing mark adapter with
  | nil => rfl
  | cons entry rest induction =>
      rw [List.cons_append, ingestNumbered, ingestNumbered]
      split
      · exact induction mark adapter
      · generalize adapter.ingest entry.2 = answered
        rcases answered with ⟨answer, next⟩
        cases answer with
        | error error => rfl
        | ok nothing => exact induction entry.1 next

theorem map_snd_enumerate (events : List Event) : (enumerate events).map (·.2) = events := by
  rw [enumerate, List.map_map]
  exact List.zipIdx_map_fst 0 events

theorem last_enumerate (events : List Event) :
    (((enumerate events).map (·.1)).getLast?).getD (-1) = (events.length : Int) - 1 := by
  induction events using List.reverseRecOn with
  | nil => rfl
  | append_singleton events event _ =>
      rw [EventStore.enumerate_append, List.map_append, List.map_singleton,
        List.getLast?_append, List.getLast?_singleton, Option.some_or, Option.getD_some,
        List.length_append, List.length_singleton]
      omega

/-- The first pass over a store ingests all of it. -/
theorem ingestStore_fresh (adapter : EventAdapter) (events : List Event) :
    adapter.ingestStore events =
      ((ingestAll events adapter).1.map fun _ => (events.length : Int) - 1,
        (ingestAll events adapter).2) := by
  have new : ∀ entry ∈ enumerate events, (-1 : Int) < entry.1 := by
    intro entry held
    have natural := (EventStore.enumerate_below events entry held).1
    omega
  rw [ingestStore, ingestNumbered_new new, map_snd_enumerate, last_enumerate]

theorem enumerate_append_all (front back : List Event) :
    ∃ later, enumerate (front ++ back) = enumerate front ++ later ∧
      ∀ entry ∈ later, (front.length : Int) ≤ entry.1 := by
  refine ⟨(back.zipIdx front.length).map fun entry => ((entry.2 : Int), entry.1), ?_, ?_⟩
  · rw [enumerate, enumerate, List.zipIdx_append, List.map_append, Nat.zero_add]
  · intro entry held
    rcases List.mem_map.mp held with ⟨place, within, rfl⟩
    exact Int.ofNat_le.mpr (List.le_snd_of_mem_zipIdx within)

/-- A second pass goes on where the first one has ended. -/
theorem ingestStore_resumed {front : List Event} {next : EventAdapter}
    (reached : adapter.ingestStore front = (.ok mark, next)) (back : List Event) :
    next.ingestStore (front ++ back) mark = adapter.ingestStore (front ++ back) := by
  rcases enumerate_append_all front back with ⟨later, split, behind⟩
  have stands : mark = (front.length : Int) - 1 := by
    rw [ingestStore_fresh] at reached
    cases answer : (ingestAll front adapter).1 with
    | error error =>
        rw [answer] at reached
        cases congrArg Prod.fst reached
    | ok nothing =>
        rw [answer] at reached
        cases congrArg Prod.fst reached
        rfl
  have seen : ∀ entry ∈ enumerate front, entry.1 ≤ mark := by
    intro entry held
    have below := (EventStore.enumerate_below front entry held).2
    omega
  rw [ingestStore] at reached
  rw [ingestStore, ingestStore, split, ingestNumbered_append, ingestNumbered_append,
    ingestNumbered_seen seen, reached]
  dsimp only
  rw [ingestNumbered_new, ingestNumbered_new]
  · intro entry held
    have above := behind entry held
    omega
  · intro entry held
    have above := behind entry held
    omega

end Raphael.Interface.Views.EventAdapter
