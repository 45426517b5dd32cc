import Raphael.Interface.ViewFold

/-! # Replaying the stream

Between two passes over one stream the plan is described by `note_step_deps`. The second
pass changes no view but for the steps that the stream plans: their descriptions are
overwritten. -/

namespace Raphael.Interface.Views.EventAdapter

open Core Foundation

variable {adapter : EventAdapter} {events : List Event} {event : Event} {taskId : String}

/-! ## One cell after the other -/

theorem verification_again (phase : VerificationPhase) :
    pass verificationCell events (pass verificationCell events phase) =
      pass verificationCell events phase := by
  apply pass_pass
  intro event _
  unfold Resets verificationCell
  cases event.eventType with
  | verificationStarted | verificationPassed | verificationFailed | verificationInconclusive
  | verificationError => exact .inl fun _ _ => rfl
  | _ => exact .inr rfl

theorem recovery_again (text : String) :
    pass recoveryCell events (pass recoveryCell events text) =
      pass recoveryCell events text := by
  apply pass_pass
  intro event _
  unfold Resets recoveryCell
  cases event.eventType with
  | recoveryStarted | recoveryDecided | recoveryExhausted => exact .inl fun _ _ => rfl
  | _ => exact .inr rfl

theorem agent_again (id : String) :
    pass (agentCell id) events (pass (agentCell id) events none) =
      pass (agentCell id) events none := by
  apply pass_pass
  intro event _
  unfold Resets agentCell
  split
  · exact .inr rfl
  · split
    · cases event.eventType with
      | agentStarted => exact .inl fun _ _ => rfl
      | _ => exact .inr rfl
    · exact .inr rfl

/-- Unless a state is set outright, the graph takes the task from one state to the next. -/
theorem phase_again :
    pass phaseCell events (pass phaseCell events .created) =
      pass phaseCell events .created := by
  by_cases reset : ∃ event ∈ events, Resets phaseCell event
  · rcases reset with ⟨event, member, resets⟩
    exact pass_eq_of_reset member resets _ _
  · have moves : ∀ event ∈ events, phaseCell event .completed = .completed ∧
        (phaseCell event .created = .completed ∧ phaseCell event .executing = .completed ∨
          phaseCell event .executing = .executing ∧
            (phaseCell event .created = .created ∨ phaseCell event .created = .executing)) := by
      intro event member
      have still : ¬ Resets phaseCell event := fun resets => reset ⟨event, member, resets⟩
      revert still
      unfold Resets phaseCell
      cases event.eventType with
      | taskCreated | stepFailed | stepTimedOut | recoveryStarted =>
          exact fun still => absurd (fun _ _ => rfl) still
      | graphCompleted => exact fun _ => ⟨rfl, .inl ⟨rfl, rfl⟩⟩
      | graphStarted => exact fun _ => ⟨rfl, .inr ⟨rfl, .inr rfl⟩⟩
      | _ => exact fun _ => ⟨rfl, .inr ⟨rfl, .inl rfl⟩⟩
    have ended : pass phaseCell events .completed = .completed :=
      pass_fixed fun event member => (moves event member).1
    have reached : pass phaseCell events .created = .completed ∨
        pass phaseCell events .executing = .executing ∧
          (pass phaseCell events .created = .created ∨
            pass phaseCell events .created = .executing) := by
      clear ended reset
      induction events using List.reverseRecOn with
      | nil => exact .inr ⟨rfl, .inl rfl⟩
      | append_singleton events event induction =>
          rw [List.forall_mem_append, List.forall_mem_singleton] at moves
          rcases moves with ⟨front, last⟩
          simp only [pass_concat]
          rcases induction front with done | ⟨on, same | begun⟩
          · exact .inl (done ▸ last.1)
          · rw [on, same]
            rcases last.2 with ⟨ends, _⟩ | ⟨stays, moves⟩
            · exact .inl ends
            · exact .inr ⟨stays, moves⟩
          · rw [on, begun]
            rcases last.2 with ⟨_, ends⟩ | ⟨stays, _⟩
            · exact .inl ends
            · exact .inr ⟨stays, .inr stays⟩
    rcases reached with done | ⟨on, same | begun⟩
    · rw [done, ended]
    · rw [same, same]
    · rw [begun, on]

/-! ## Calls -/

/-- An event of a call that the adapter shows. -/
def showsCall (eventType : EventType) : Bool :=
  eventType ∈ [.toolRequested, .permissionGranted, .toolStarted, .toolCompleted,
    .toolFailed, .permissionDenied]

def ofCall (id : String) (events : List Event) : List Event :=
  events.filter fun event => showsCall event.eventType && decide (id = callIdOf event.payload)

theorem pass_ofCall (id : String) (events : List Event) (shown : CallView) :
    pass (callCell id) events shown = pass callStep (ofCall id events) shown := by
  induction events generalizing shown with
  | nil => rfl
  | cons event rest induction =>
      rw [pass_cons, induction, ofCall, ofCall, List.filter_cons, callCell]
      by_cases mine : id = callIdOf event.payload
      · rw [if_pos mine, decide_eq_true mine, Bool.and_true]
        cases shows : showsCall event.eventType with
        | true => rfl
        | false =>
            have idle : callStep event shown = shown := by
              revert shows
              unfold callStep CallView.change
              cases event.eventType <;> first | exact fun _ => rfl | exact nofun
            rw [idle]
            rfl
      · rw [if_neg mine, decide_eq_false mine, Bool.and_false]
        rfl

/-- The orders in which the runner publishes the events of one call that are shown. -/
def callOrders : List (List EventType) :=
  [[.toolRequested, .permissionDenied],
    [.toolRequested, .permissionGranted, .toolStarted, .toolCompleted],
    [.toolRequested, .permissionGranted, .toolStarted, .toolFailed]]

/-- The events of every call come in such an order, some of them perhaps not at all. -/
def CallsInOrder (events : List Event) : Prop :=
  ∀ taskId id, ∃ order ∈ callOrders,
    ((ofCall id (ofTask taskId events)).map (·.eventType)).Sublist order

/-- The first event of an order is there or is left out. -/
theorem pass_of_sublist {kind : EventType} {order : List EventType} {events : List Event}
    (inOrder : (events.map (·.eventType)).Sublist (kind :: order)) :
    ∃ (first : Option Event) (rest : List Event), (rest.map (·.eventType)).Sublist order ∧
      ∀ shown, pass callStep events shown =
        pass callStep rest (first.elim shown fun event => shown.change kind event) := by
  cases events with
  | nil => exact ⟨none, [], List.nil_sublist _, fun _ => rfl⟩
  | cons event rest =>
      rw [List.map_cons] at inOrder
      cases inOrder with
      | cons _ later => exact ⟨none, event :: rest, later, fun _ => rfl⟩
      | cons_cons _ later => exact ⟨some event, rest, later, fun _ => rfl⟩

theorem eq_nil_of_sublist {events : List Event}
    (inOrder : (events.map (·.eventType)).Sublist []) : events = [] :=
  List.map_eq_nil_iff.mp (List.sublist_nil.mp inOrder)

theorem call_again (inOrder : ∃ order ∈ callOrders,
    (events.map (·.eventType)).Sublist order) :
    pass callStep events (pass callStep events {}) = pass callStep events {} := by
  rcases inOrder with ⟨order, listed, inOrder⟩
  simp only [callOrders, List.mem_cons, List.not_mem_nil, or_false] at listed
  rcases listed with rfl | ended
  · rcases pass_of_sublist inOrder with ⟨requested, later, inOrder, first⟩
    rcases pass_of_sublist inOrder with ⟨denied, last, inOrder, second⟩
    obtain rfl := eq_nil_of_sublist inOrder
    simp only [first, second, pass_nil]
    cases requested <;> cases denied <;> rfl
  · have four : ∃ ending ∈ [EventType.toolCompleted, .toolFailed],
        (events.map (·.eventType)).Sublist
          [.toolRequested, .permissionGranted, .toolStarted, ending] := by
      rcases ended with rfl | rfl
      · exact ⟨_, List.mem_cons_self, inOrder⟩
      · exact ⟨_, List.mem_cons_of_mem _ List.mem_cons_self, inOrder⟩
    rcases four with ⟨ending, listed, inOrder⟩
    rcases pass_of_sublist inOrder with ⟨requested, later, inOrder, first⟩
    rcases pass_of_sublist inOrder with ⟨granted, later, inOrder, second⟩
    rcases pass_of_sublist inOrder with ⟨started, later, inOrder, third⟩
    rcases pass_of_sublist inOrder with ⟨finished, last, inOrder, fourth⟩
    obtain rfl := eq_nil_of_sublist inOrder
    simp only [first, second, third, fourth, pass_nil]
    simp only [List.mem_cons, List.not_mem_nil, or_false] at listed
    rcases listed with rfl | rfl
    · cases requested <;> cases granted <;> cases started <;> cases finished <;> rfl
    · cases requested <;> cases granted <;> cases started <;> cases finished <;> rfl

/-! ## Notes -/

variable {notes : List StepNote} {id : String}

def noteAll (notes : List StepNote) (adapter : EventAdapter) : EventAdapter :=
  notes.foldl noteStepDeps adapter

/-- What a note makes of one step. -/
def noteCell (taskId id : String) (note : StepNote) (shown : Option StepView) :
    Option StepView :=
  if note.taskId = taskId ∧ note.stepId = id then some (note.describe (shown.getD {}))
  else shown

/-- A step that is there, behind the notes of it. -/
def noted (notes : List StepNote) (taskId id : String) (node : StepView) : StepView :=
  pass (fun note node =>
    if note.taskId = taskId ∧ note.stepId = id then note.describe node else node) notes node

theorem noteCell_some (notes : List StepNote) (taskId id : String) (node : StepView) :
    pass (noteCell taskId id) notes (some node) = some (noted notes taskId id node) := by
  induction notes generalizing node with
  | nil => rfl
  | cons note rest induction =>
      rw [pass_cons, noted, pass_cons, noteCell]
      split
      · exact induction _
      · exact induction _

/-- A note leaves the state of a step alone, and does not look at it. -/
theorem noted_state (notes : List StepNote) (taskId id : String) (node : StepView)
    (state : StepState) :
    noted notes taskId id { node with state } =
      { noted notes taskId id node with state } := by
  induction notes generalizing node with
  | nil => rfl
  | cons note rest induction =>
      rw [noted, noted, pass_cons, pass_cons]
      split
      · exact induction (note.describe node)
      · exact induction node

theorem state_noted (notes : List StepNote) (taskId id : String) (node : StepView) :
    (noted notes taskId id node).state = node.state := by
  have same := congrArg StepView.state (noted_state notes taskId id node node.state)
  exact same

theorem viewOf_note (adapter : EventAdapter) (note : StepNote) (taskId : String) :
    (adapter.noteStepDeps note).viewOf taskId = { adapter.viewOf taskId with
      steps := fun id => noteCell taskId id note ((adapter.viewOf taskId).steps id) } := by
  unfold noteStepDeps viewOf noteCell
  by_cases mine : taskId = note.taskId
  · subst mine
    simp only [Function.update_self, Option.getD_some, true_and]
    congr 1
    funext id
    rw [amendSlot_apply]
    by_cases same : id = note.stepId
    · rw [if_pos same, if_pos same.symm]
    · rw [if_neg same, if_neg (Ne.symm same)]
  · simp only [Function.update_of_ne mine, Ne.symm mine, false_and, if_false]

theorem viewOf_noteAll (notes : List StepNote) (adapter : EventAdapter) (taskId : String) :
    (noteAll notes adapter).viewOf taskId = { adapter.viewOf taskId with
      steps := fun id => pass (noteCell taskId id) notes ((adapter.viewOf taskId).steps id) } := by
  induction notes generalizing adapter with
  | nil => rfl
  | cons note rest induction =>
      rw [noteAll, List.foldl_cons]
      have others := induction (adapter.noteStepDeps note)
      rw [viewOf_note] at others
      exact others

theorem clocks_noteAll (notes : List StepNote) (adapter : EventAdapter) :
    (noteAll notes adapter).clocks = adapter.clocks := by
  induction notes generalizing adapter with
  | nil => rfl
  | cons note rest induction => exact induction (adapter.noteStepDeps note)

theorem isSome_noteAll (known : (adapter.tasks taskId).isSome = true) :
    ((noteAll notes adapter).tasks taskId).isSome = true := by
  induction notes generalizing adapter with
  | nil => exact known
  | cons note rest induction =>
      apply induction
      unfold noteStepDeps
      by_cases mine : taskId = note.taskId
      · subst mine
        simp only [Function.update_self, Option.isSome_some]
      · simp only [Function.update_of_ne mine, known]

/-! ## Steps -/

/-- A planned step is shown under its id, without dependencies. -/
theorem step_of_named (member : event ∈ events) (planned : id ∈ named event)
    (shown : Option StepView) :
    ∃ state, pass (stepCell id) events shown = some { label := id, state } := by
  have keeps : ∀ (later : List Event) (state : StepState), ∃ last,
      pass (stepCell id) later (some { label := id, state }) =
        some { label := id, state := last } := by
    intro later
    induction later with
    | nil => exact fun state => ⟨state, rfl⟩
    | cons event rest induction =>
        intro state
        rw [pass_cons, stepCell]
        split
        · exact induction .pending
        · split
          · cases stepState event.eventType with
            | none => exact induction state
            | some next => exact induction next
          · exact induction state
  induction events generalizing shown with
  | nil => cases member
  | cons first rest induction =>
      rw [pass_cons]
      rcases List.mem_cons.mp member with rfl | later
      · rw [stepCell, if_pos planned]
        exact keeps rest .pending
      · exact induction later _

/-- A step that is not planned is given its last state. -/
theorem step_of_unnamed (unplanned : ∀ event ∈ events, id ∉ named event) :
    (∀ shown, pass (stepCell id) events shown = shown) ∨
      ∃ state, ∀ shown, pass (stepCell id) events shown =
        some { Option.getD shown {} with state } := by
  induction events using List.reverseRecOn with
  | nil => exact .inl fun _ => rfl
  | append_singleton events event induction =>
      rw [List.forall_mem_append, List.forall_mem_singleton] at unplanned
      simp only [pass_concat, stepCell, if_neg unplanned.2]
      by_cases mine : id = stepIdOf event.payload
      · simp only [if_pos mine]
        cases stepState event.eventType with
        | none => exact induction unplanned.1
        | some state =>
            refine .inr ⟨state, fun shown => ?_⟩
            rcases induction unplanned.1 with same | ⟨before, last⟩
            · rw [same]
              rfl
            · rw [last]
              rfl
      · simp only [if_neg mine]
        exact induction unplanned.1

/-- The second pass leaves a step alone exactly where the notes have left its plan alone. -/
theorem step_again :
    pass (stepCell id) events (pass (noteCell taskId id) notes
        (pass (stepCell id) events none)) =
      pass (noteCell taskId id) notes (pass (stepCell id) events none) ↔
    ∀ event ∈ events, id ∈ named event →
      noted notes taskId id { label := id } = { label := id } := by
  by_cases planned : ∃ event ∈ events, id ∈ named event
  · rcases planned with ⟨event, member, planned⟩
    have resets : Resets (stepCell id) event := by
      intro state other
      rw [stepCell, stepCell, if_pos planned, if_pos planned]
    rcases step_of_named member planned none with ⟨state, shown⟩
    rw [pass_eq_of_reset member resets _ none, shown, noteCell_some,
      noted_state notes taskId id { label := id } state]
    constructor
    · intro same _ _ _
      have stays := state_noted notes taskId id { label := id }
      generalize noted notes taskId id { label := id } = described at same stays ⊢
      rcases described with ⟨label, after, dependencies⟩
      cases stays
      cases same
      rfl
    · intro spared
      rw [spared event member planned]
  · refine iff_of_true ?_ fun event member named => absurd ⟨event, member, named⟩ planned
    have unplanned : ∀ event ∈ events, id ∉ named event :=
      fun event member named => planned ⟨event, member, named⟩
    rcases step_of_unnamed unplanned with same | ⟨state, last⟩
    · rw [same]
    · rw [last none, noteCell_some, last]
      have stays := state_noted notes taskId id { (none : Option StepView).getD {} with state }
      generalize noted notes taskId id _ = described at stays ⊢
      cases stays
      rfl

/-! ## Whole streams -/

/-- The second pass leaves every view as the first pass and the notes have made it. -/
def Replays (events : List Event) (notes : List StepNote) : Prop :=
  let noted := noteAll notes (ingestAll events {}).2
  ∀ taskId, (ingestAll events noted).2.snapshot taskId = noted.snapshot taskId

/-- A store that has grown may be ingested from where it was left. -/
def Resumes (events : List Event) : Prop :=
  ∀ (front back : List Event) (adapter next : EventAdapter) (mark : Int),
    events = front ++ back → adapter.ingestStore front = (.ok mark, next) →
      next.ingestStore events mark = adapter.ingestStore events

/-- The steps that the stream plans are, behind the notes, as it has planned them. -/
def SparesPlans (events : List Event) (notes : List StepNote) : Prop :=
  ∀ event ∈ events, event.taskId ≠ "" → ∀ id ∈ named event,
    noted notes event.taskId id { label := id } = { label := id }

theorem clockOf_noteAll (notes : List StepNote) (adapter : EventAdapter) (taskId : String) :
    (noteAll notes adapter).clockOf taskId = adapter.clockOf taskId := by
  rw [clockOf, clocks_noteAll, clockOf]

/-- What does not look at the steps is left alone where its cell is. -/
theorem read_again (notes : List StepNote) {Cell : Type} {read : TaskView → ToolClock → Cell}
    {cell : Event → Cell → Cell} (follows : Follows read cell)
    (blind : ∀ view steps clock, read { view with steps } clock = read view clock)
    (accepted : ∀ event ∈ events, Accepted event) (named : taskId ≠ "")
    (again : pass cell (ofTask taskId events)
        (pass cell (ofTask taskId events) (read {} fun _ => none)) =
      pass cell (ofTask taskId events) (read {} fun _ => none)) :
    read ((ingestAll events (noteAll notes (ingestAll events {}).2)).2.viewOf taskId)
        ((ingestAll events (noteAll notes (ingestAll events {}).2)).2.clockOf taskId) =
      read ((noteAll notes (ingestAll events {}).2).viewOf taskId)
        ((noteAll notes (ingestAll events {}).2).clockOf taskId) := by
  have first : read ((noteAll notes (ingestAll events {}).2).viewOf taskId)
        ((noteAll notes (ingestAll events {}).2).clockOf taskId) =
      pass cell (ofTask taskId events) (read {} fun _ => none) := by
    rw [viewOf_noteAll, clockOf_noteAll, blind]
    exact read_ingestAll follows named accepted {}
  rw [read_ingestAll follows named accepted, first, again]

theorem steps_again (notes : List StepNote) (accepted : ∀ event ∈ events, Accepted event)
    (named : taskId ≠ "")
    (id : String) :
    ((ingestAll events (noteAll notes (ingestAll events {}).2)).2.viewOf taskId).steps id =
        ((noteAll notes (ingestAll events {}).2).viewOf taskId).steps id ↔
      ∀ event ∈ ofTask taskId events, id ∈ EventAdapter.named event →
        noted notes taskId id { label := id } = { label := id } := by
  have once : ((ingestAll events {}).2.viewOf taskId).steps id =
      pass (stepCell id) (ofTask taskId events) none :=
    read_ingestAll (follows_steps id) named accepted {}
  have first : ((noteAll notes (ingestAll events {}).2).viewOf taskId).steps id =
      pass (noteCell taskId id) notes (pass (stepCell id) (ofTask taskId events) none) := by
    rw [viewOf_noteAll, ← once]
  have twice : ((ingestAll events
        (noteAll notes (ingestAll events {}).2)).2.viewOf taskId).steps id =
      pass (stepCell id) (ofTask taskId events)
        (((noteAll notes (ingestAll events {}).2).viewOf taskId).steps id) :=
    read_ingestAll (follows_steps id) named accepted _
  rw [twice, first]
  exact step_again

theorem viewOf_again (notes : List StepNote) (inOrder : CallsInOrder events)
    (accepted : ∀ event ∈ events, Accepted event) (named : taskId ≠ "") :
    (ingestAll events (noteAll notes (ingestAll events {}).2)).2.viewOf taskId =
        (noteAll notes (ingestAll events {}).2).viewOf taskId ↔
      ∀ event ∈ ofTask taskId events, ∀ id ∈ EventAdapter.named event,
        noted notes taskId id { label := id } = { label := id } := by
  constructor
  · intro same event member id planned
    have shown := congrArg (fun view => view.steps id) same
    exact (steps_again notes accepted named id).mp shown event member planned
  · intro spared
    have calls : ∀ id, _ := fun id =>
      read_again notes (follows_call id) (fun _ _ _ => rfl) accepted named (by
        rw [pass_ofCall, pass_ofCall]
        exact call_again (inOrder taskId id))
    apply TaskView.ext
    · exact read_again notes follows_state (fun _ _ _ => rfl) accepted named phase_again
    · funext id
      exact (steps_again notes accepted named id).mpr fun event member planned =>
        spared event member id planned
    · funext id
      exact read_again notes (follows_agents id) (fun _ _ _ => rfl) accepted named (agent_again id)
    · funext id
      exact congrArg CallView.activity (calls id)
    · funext id
      exact congrArg CallView.permission (calls id)
    · exact read_again notes follows_verification (fun _ _ _ => rfl) accepted named
        (verification_again _)
    · exact read_again notes follows_recovery (fun _ _ _ => rfl) accepted named (recovery_again _)

/-- Replaying a stream changes nothing, and a store may be resumed, exactly where the steps
that the stream plans have been given nothing to lose. -/
theorem replays_iff_spared (inOrder : CallsInOrder events)
    (accepted : (ingestAll events {}).1 = .ok ()) :
    (Replays events notes ∧ Resumes events) ↔ SparesPlans events notes := by
  have accepts := ingestAll_fst_ok.mp accepted
  have resumes : Resumes events := by
    rintro front back adapter next mark rfl reached
    exact ingestStore_resumed reached back
  rw [and_iff_left resumes]
  constructor
  · intro replays event member named id planned
    have same := congrArg (Option.getD · {}) (replays event.taskId)
    exact (viewOf_again notes inOrder accepts named).mp same event
      (List.mem_filter.mpr ⟨member, decide_eq_true rfl⟩) id planned
  · intro spared taskId
    by_cases quiet : taskId = "" ∨ ofTask taskId events = []
    · exact tasks_ingestAll_of_quiet accepts quiet _
    · rw [not_or] at quiet
      have known : ((noteAll notes (ingestAll events {}).2).tasks taskId).isSome = true :=
        isSome_noteAll (isSome_of_event accepts quiet.1 quiet.2)
      have kept := isSome_ingestAll accepts known
      have same := (viewOf_again notes inOrder accepts quiet.1).mpr
        fun event member id planned => by
          rcases List.mem_filter.mp member with ⟨inside, mine⟩
          have own := of_decide_eq_true mine
          rw [← own] at quiet ⊢
          exact spared event inside quiet.1 id planned
      unfold snapshot
      unfold viewOf at same
      rcases Option.isSome_iff_exists.mp known with ⟨before, held⟩
      rcases Option.isSome_iff_exists.mp kept with ⟨after, holds⟩
      rw [held, holds] at same ⊢
      exact congrArg some same

/-- A planned step, and a call of a tool. -/
def plannedStream : List Event :=
  [{ eventType := .planCreated, taskId := "t", payload := [("steps", .arr [.str "a"])] },
    { eventType := .toolRequested, taskId := "t", payload := [("call_id", .str "c")] },
    { eventType := .permissionGranted, taskId := "t", payload := [("call_id", .str "c")] },
    { eventType := .toolStarted, taskId := "t", payload := [("call_id", .str "c")] },
    { eventType := .toolFailed, taskId := "t", payload := [("call_id", .str "c")] }]

theorem callsInOrder_plannedStream : CallsInOrder plannedStream := by
  intro taskId id
  refine ⟨[.toolRequested, .permissionGranted, .toolStarted, .toolFailed], by decide, ?_⟩
  have whole : (plannedStream.filter fun event => showsCall event.eventType).map (·.eventType) =
      [.toolRequested, .permissionGranted, .toolStarted, .toolFailed] := by decide
  have inside : (ofCall id (ofTask taskId plannedStream)).Sublist
      (plannedStream.filter fun event => showsCall event.eventType) := by
    apply (List.filter_sublist.filter _).trans
    exact List.monotone_filter_right _ fun _ shown => (Bool.and_eq_true_iff.mp shown).1
  rw [← whole]
  exact inside.map _

/-- A note of a step that is not planned is kept. -/
theorem replays_unplanned :
    Replays plannedStream [{ taskId := "t", stepId := "b", dependencies := ["a"] }] ∧
      Resumes plannedStream :=
  (replays_iff_spared callsInOrder_plannedStream (by decide)).mpr (by
    unfold SparesPlans
    decide)

/-- The description of a planned step is gone behind the second pass. -/
theorem description_overwritten :
    CallsInOrder plannedStream ∧ (ingestAll plannedStream {}).1 = .ok () ∧
      ¬ (Replays plannedStream
          [{ taskId := "t", stepId := "a", dependencies := ["b"], label := "first" }] ∧
        Resumes plannedStream) := by
  refine ⟨callsInOrder_plannedStream, by decide, fun both => ?_⟩
  have same := congrArg (fun view => (view.getD {}).steps "a") (both.1 "t")
  revert same
  decide

end Raphael.Interface.Views.EventAdapter
