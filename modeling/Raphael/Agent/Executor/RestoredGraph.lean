import Raphael.Agent.Executor.GraphSnapshot
import Raphael.Foundation.FallibleFold

/-! # What a damaged snapshot leaves

Each entry of a snapshot is restored in all its fields or is to leave a fresh node behind.
The block that assigns the fields catches no `OverflowError`, it leaves the fields before
the one that failed, and nothing looks at the dependencies. -/

namespace Raphael.Agent.Executor

open Core Foundation

/-- A field that is as in a fresh node. The error and the flag are left open. -/
def Field.Unset (node : GraphNode) : Field → Prop
  | .attempts => node.attempts = 0
  | .error => True
  | .interrupted => True
  | .timeoutS => node.timeoutS = none
  | .startedAt => node.startedAt = none
  | .completedAt => node.completedAt = none
  | .result => node.result = none
  | .toolResults => node.toolResults = []

/-- No error, or one that tells why the saved state is not there. -/
def Explained (error : String) : Prop :=
  error = "" ∨ (∃ text, error = "unrecognized saved state " ++ text ++ "; reset") ∨
    error = "interrupted by restart; recovery pending (Gate 10)" ∨
    ∃ message, error = "corrupt saved state discarded: " ++ message

/-- A node with no saved field. -/
structure Reset (node : GraphNode) : Prop where
  pending : node.state = .pending
  unset : ∀ field, Field.Unset node field
  explained : Explained node.error

namespace Readers

variable (readers : Readers)

/-- The field's conversion raises nothing. -/
def Readable (saved : Saved) (field : Field) : Prop :=
  ∃ write, readers.read saved field = .ok write

/-- The saved field is what a fresh node has. -/
def Blank (saved : Saved) : Field → Prop
  | .attempts => readers.int ((Json.lookup "attempts" saved).getD (.int 0)) = .ok 0
  | .error => True
  | .interrupted => True
  | .timeoutS => saved.value "timeout_s" = .null
  | .startedAt => (saved.value "started_at").truthy = false
  | .completedAt => (saved.value "completed_at").truthy = false
  | .result => (saved.value "result").truthy = false
  | .toolResults => readers.validateAll ((Json.lookup "tool_results" saved).getD (.arr [])) = .ok []

/-- The entry has a state that a restored node can be in, and every field can be read. -/
def Usable (saved : Saved) (state : StepState) : Prop :=
  stepState saved.state = some state ∧ state ≠ .running ∧ ∀ field, readers.Readable saved field

def caught : Raised → Prop
  | .overflowError _ => False
  | .valueError _ | .typeError _ => True

/-- An entry that restoring gets out of the way of. -/
structure Discardable (saved : Saved) : Prop where
  /-- A state that is none has a `repr`. -/
  printable : stepState saved.state = none → (saved.value "state").printable = true
  /-- The first field that cannot be read raises what is caught, and the fields before it
  are blank. -/
  fields : ∀ state, stepState saved.state = some state → state ≠ .running →
    ∀ front field back raised, Field.order = front ++ field :: back →
      (∀ earlier ∈ front, readers.Readable saved earlier) →
      readers.read saved field = .error raised →
      caught raised ∧ ∀ earlier ∈ front, readers.Blank saved earlier

/-! ## One entry -/

variable {readers : Readers} {saved : Saved}

/-- An assignment of a value that was converted. -/
private theorem write_of_bind {Value : Type} {conversion : Except Raised Value}
    {assign : Value → GraphNode → GraphNode} {write : GraphNode → GraphNode}
    (reads : (do let value ← conversion; return assign value) = Except.ok write) :
    ∃ value, conversion = .ok value ∧ write = assign value := by
  cases conversion with
  | error raised => cases reads
  | ok value => exact ⟨value, rfl, (Except.ok.inj reads).symm⟩

/-- An assignment under a condition. -/
private theorem write_of_ite {Value : Type} {condition : Bool}
    {conversion : Except Raised Value} {assign : Value → GraphNode → GraphNode}
    {write : GraphNode → GraphNode}
    (reads : (if condition then (do let value ← conversion; return assign value)
      else return id) = Except.ok write) :
    condition = false ∧ write = id ∨ condition = true ∧ ∃ value, write = assign value := by
  cases condition with
  | false => exact .inl ⟨rfl, (Except.ok.inj reads).symm⟩
  | true =>
      rcases write_of_bind reads with ⟨value, _, same⟩
      exact .inr ⟨rfl, value, same⟩

/-- An assignment touches its own field, and leaves it blank or not. -/
theorem unset_write {field : Field} {write : GraphNode → GraphNode}
    (reads : readers.read saved field = .ok write) {node : GraphNode}
    (unset : Field.Unset node field) (other : Field) :
    Field.Unset (write node) other ↔
      if other = field then readers.Blank saved other else Field.Unset node other := by
  cases field with
  | attempts =>
      rcases write_of_bind reads with ⟨value, converted, rfl⟩
      cases other <;> simp [Field.Unset, Blank, converted]
  | error =>
      rcases write_of_bind reads with ⟨value, converted, rfl⟩
      cases other <;> simp [Field.Unset, Blank]
  | interrupted =>
      obtain rfl := Except.ok.inj reads
      cases other <;> simp [Field.Unset, Blank]
  | timeoutS =>
      simp only [read] at reads
      split at reads
      · rename_i none
        obtain rfl := Except.ok.inj reads
        cases other <;> simp [Field.Unset, Blank, none]
      · rename_i present
        rcases write_of_bind reads with ⟨value, converted, rfl⟩
        have given : saved.value "timeout_s" ≠ .null := present
        cases other <;> simp [Field.Unset, Blank, given]
  | startedAt =>
      rcases write_of_ite reads with ⟨falsy, rfl⟩ | ⟨truthy, value, rfl⟩
      · cases other <;> simp_all [Field.Unset, Blank]
      · cases other <;> simp [Field.Unset, Blank, truthy]
  | completedAt =>
      rcases write_of_ite reads with ⟨falsy, rfl⟩ | ⟨truthy, value, rfl⟩
      · cases other <;> simp_all [Field.Unset, Blank]
      · cases other <;> simp [Field.Unset, Blank, truthy]
  | result =>
      rcases write_of_ite reads with ⟨falsy, rfl⟩ | ⟨truthy, value, rfl⟩
      · cases other <;> simp_all [Field.Unset, Blank]
      · cases other <;> simp [Field.Unset, Blank, truthy]
  | toolResults =>
      rcases write_of_bind reads with ⟨value, converted, rfl⟩
      cases other <;> simp [Field.Unset, Blank, converted]

/-- Distinct fields, assigned to a node that has none of them yet. -/
theorem unset_assign {fields : List Field} (distinct : fields.Nodup) {node left : GraphNode}
    (unset : ∀ field ∈ fields, Field.Unset node field)
    (assigned : readers.assign saved fields node = .ok left) (other : Field) :
    Field.Unset left other ↔
      if other ∈ fields then readers.Blank saved other else Field.Unset node other := by
  induction fields generalizing node with
  | nil =>
      obtain rfl := Except.ok.inj assigned
      simp
  | cons field rest induction =>
      rcases List.nodup_cons.mp distinct with ⟨absent, distinctRest⟩
      unfold assign at assigned
      split at assigned
      · cases assigned
      · rename_i write reads
        have written := unset_write reads (unset field List.mem_cons_self)
        have unsetRest : ∀ later ∈ rest, Field.Unset (write node) later := by
          intro later member
          have different : later ≠ field := fun same => absent (same ▸ member)
          rw [written later, if_neg different]
          exact unset later (List.mem_cons_of_mem field member)
        rw [induction distinctRest unsetRest assigned, written other]
        by_cases member : other ∈ rest
        · simp [member]
        · simp [member, List.mem_cons]

/-- All fields are assigned, or those before the first that cannot be read. -/
theorem assign_cases (saved : Saved) (fields : List Field) (node : GraphNode) :
    (∃ left, readers.assign saved fields node = .ok left ∧
      ∀ field ∈ fields, readers.Readable saved field) ∨
    ∃ front field back raised left, fields = front ++ field :: back ∧
      (∀ earlier ∈ front, readers.Readable saved earlier) ∧
      readers.read saved field = .error raised ∧ readers.assign saved front node = .ok left ∧
      readers.assign saved fields node = .error (raised, left) := by
  induction fields generalizing node with
  | nil => exact .inl ⟨node, rfl, by simp⟩
  | cons field rest induction =>
      cases reads : readers.read saved field with
      | error raised =>
          refine .inr ⟨[], field, rest, raised, node, rfl, by simp, reads, rfl, ?_⟩
          simp [assign, reads]
      | ok write =>
          rcases induction (write node) with
            ⟨left, assigned, readable⟩ |
            ⟨front, failing, back, raised, left, rfl, readable, fails, assigned, stopped⟩
          · refine .inl ⟨left, by simpa [assign, reads] using assigned, ?_⟩
            rw [List.forall_mem_cons]
            exact ⟨⟨write, reads⟩, readable⟩
          · refine .inr ⟨field :: front, failing, back, raised, left, rfl, ?_, fails,
              by simpa [assign, reads] using assigned,
              by simpa [assign, reads] using stopped⟩
            rw [List.forall_mem_cons]
            exact ⟨⟨write, reads⟩, readable⟩

theorem state_write {field : Field} {write : GraphNode → GraphNode}
    (reads : readers.read saved field = .ok write) (node : GraphNode) :
    (write node).state = node.state := by
  cases field with
  | attempts => rcases write_of_bind reads with ⟨value, _, rfl⟩; rfl
  | error => rcases write_of_bind reads with ⟨value, _, rfl⟩; rfl
  | interrupted => rw [← Except.ok.inj reads]
  | timeoutS =>
      simp only [read] at reads
      split at reads
      · rw [← Except.ok.inj reads]
      · rcases write_of_bind reads with ⟨value, _, rfl⟩
        rfl
  | startedAt => rcases write_of_ite reads with ⟨_, rfl⟩ | ⟨_, value, rfl⟩ <;> rfl
  | completedAt => rcases write_of_ite reads with ⟨_, rfl⟩ | ⟨_, value, rfl⟩ <;> rfl
  | result => rcases write_of_ite reads with ⟨_, rfl⟩ | ⟨_, value, rfl⟩ <;> rfl
  | toolResults => rcases write_of_bind reads with ⟨value, _, rfl⟩; rfl

theorem state_assign {fields : List Field} {node left : GraphNode}
    (assigned : readers.assign saved fields node = .ok left) : left.state = node.state := by
  induction fields generalizing node with
  | nil =>
      obtain rfl := Except.ok.inj assigned
      rfl
  | cons field rest induction =>
      unfold assign at assigned
      split at assigned
      · cases assigned
      · rename_i write reads
        rw [induction assigned, state_write reads]

private theorem mem_order (field : Field) : field ∈ Field.order := by
  cases field <;> decide

private theorem unset_fresh (state : StepState) (field : Field) :
    Field.Unset { state } field := by
  cases field <;> simp [Field.Unset]

private theorem reset_marked (interrupted : Bool) {error : String}
    (explained : Explained error) : Reset { interrupted, error } where
  pending := rfl
  unset := fun field => by cases field <;> simp [Field.Unset]
  explained := explained

/-- There is one first element that lacks a property. -/
private theorem eq_of_first {Value : Type} {Holds : Value → Prop} {front front' : List Value}
    {value value' : Value} {back back' : List Value}
    (same : front ++ value :: back = front' ++ value' :: back')
    (holds : ∀ earlier ∈ front, Holds earlier) (lacks : ¬ Holds value)
    (holds' : ∀ earlier ∈ front', Holds earlier) (lacks' : ¬ Holds value') :
    front = front' ∧ value = value' := by
  induction front generalizing front' with
  | nil =>
      cases front' with
      | nil => exact ⟨rfl, (List.cons.inj same).1⟩
      | cons first rest =>
          rw [(List.cons.inj same).1] at lacks
          exact absurd (holds' first List.mem_cons_self) lacks
  | cons first rest induction =>
      cases front' with
      | nil =>
          rw [← (List.cons.inj same).1] at lacks'
          exact absurd (holds first List.mem_cons_self) lacks'
      | cons first' rest' =>
          rcases List.cons.inj same with ⟨rfl, sameRest⟩
          rcases induction sameRest (List.forall_mem_cons.mp holds).2
            (List.forall_mem_cons.mp holds').2 with ⟨rfl, sameValue⟩
          exact ⟨rfl, sameValue⟩

theorem restoreNode_eq {state : StepState} (known : stepState saved.state = some state)
    (idle : state ≠ .running) (node : GraphNode) :
    readers.restoreNode saved node = readers.restoreFields saved state node := by
  unfold restoreNode
  rw [known]
  cases state <;> first | rfl | exact absurd rfl idle

/-- An entry that can be used is kept whole. -/
theorem restoreNode_of_usable {state : StepState} (usable : readers.Usable saved state) :
    ∃ node, readers.restoreNode saved {} = .ok node ∧
      readers.assign saved Field.order { state } = .ok node ∧ node.state = state := by
  rcases usable with ⟨known, idle, readable⟩
  rcases readers.assign_cases saved Field.order { state } with
    ⟨node, assigned, _⟩ | ⟨front, field, back, raised, left, _, _, fails, _, _⟩
  · refine ⟨node, ?_, assigned, state_assign assigned⟩
    rw [restoreNode_eq known idle]
    simp [restoreFields, assigned]
  · rcases readable field with ⟨write, reads⟩
    rw [reads] at fails
    cases fails

/-- What the handler leaves of a node, if it catches what was raised. -/
theorem discard_cases (node : GraphNode) (raised : Raised) :
    (¬ caught raised ∧ discard node raised = .error raised) ∨
    caught raised ∧ discard node raised = .ok { node with
      state := .pending
      interrupted := true
      error := "corrupt saved state discarded: " ++ raised.message } := by
  cases raised with
  | overflowError message => exact .inl ⟨not_false, rfl⟩
  | valueError message => exact .inr ⟨trivial, rfl⟩
  | typeError message => exact .inr ⟨trivial, rfl⟩

/-- Discarding leaves the fields that were assigned. -/
private theorem reset_discarded_iff {left : GraphNode} {message : String} :
    Reset { left with
        state := .pending
        interrupted := true
        error := "corrupt saved state discarded: " ++ message } ↔
      ∀ field, Field.Unset left field := by
  have same : ∀ field, Field.Unset { left with
      state := .pending
      interrupted := true
      error := "corrupt saved state discarded: " ++ message } field ↔
        Field.Unset left field := by
    intro field
    cases field <;> exact Iff.rfl
  constructor
  · intro reset field
    exact (same field).mp (reset.unset field)
  · intro unset
    exact ⟨rfl, fun field => (same field).mpr (unset field), .inr (.inr (.inr ⟨message, rfl⟩))⟩

/-- Where a field cannot be read, the entry can be discarded if that is caught and the
fields before it are blank. -/
private theorem discardable_iff {state : StepState} (known : stepState saved.state = some state)
    (idle : state ≠ .running) {front back : List Field} {field : Field} {raised : Raised}
    (shape : Field.order = front ++ field :: back)
    (readable : ∀ earlier ∈ front, readers.Readable saved earlier)
    (fails : readers.read saved field = .error raised) :
    readers.Discardable saved ↔
      caught raised ∧ ∀ earlier ∈ front, readers.Blank saved earlier := by
  constructor
  · intro discardable
    exact discardable.fields state known idle front field back raised shape readable fails
  · rintro ⟨caught, blank⟩
    constructor
    · intro unknown
      rw [known] at unknown
      cases unknown
    · intro _ _ _ front' field' back' raised' shape' readable' fails'
      have unreadable : ∀ field raised, readers.read saved field = .error raised →
          ¬ readers.Readable saved field := by
        rintro field raised fails ⟨write, reads⟩
        rw [fails] at reads
        cases reads
      rcases eq_of_first (shape.symm.trans shape') readable (unreadable _ _ fails) readable'
        (unreadable _ _ fails') with ⟨rfl, rfl⟩
      obtain rfl := Except.error.inj (fails.symm.trans fails')
      exact ⟨caught, blank⟩

/-- Any other entry leaves a fresh node behind if it can be discarded, and not
otherwise. -/
theorem restoreNode_of_unusable (unusable : ∀ state, ¬ readers.Usable saved state) :
    (∃ node, readers.restoreNode saved {} = .ok node ∧ Reset node) ↔
      readers.Discardable saved := by
  cases known : stepState saved.state with
  | none =>
      have discardable : readers.Discardable saved ↔
          (saved.value "state").printable = true := by
        constructor
        · exact fun discardable => discardable.printable known
        · intro printable
          refine ⟨fun _ => printable, ?_⟩
          intro state named
          rw [known] at named
          cases named
      rw [discardable]
      unfold restoreNode Json.tryRepr
      rw [known]
      cases printed : (saved.value "state").printable with
      | false =>
          refine iff_of_false ?_ Bool.false_ne_true
          rintro ⟨node, restored, _⟩
          cases restored
      | true =>
          exact iff_of_true ⟨_, rfl, reset_marked true (.inr (.inl ⟨_, rfl⟩))⟩ rfl
  | some state =>
      by_cases idle : state = .running
      · subst idle
        have discardable : readers.Discardable saved := by
          constructor
          · intro unknown
            rw [known] at unknown
            cases unknown
          · intro state named idle
            exact absurd (Option.some.inj (named.symm.trans known)) idle
        unfold restoreNode
        rw [known]
        exact iff_of_true ⟨_, rfl, reset_marked true (.inr (.inr (.inl rfl)))⟩ discardable
      · rcases readers.assign_cases saved Field.order { state } with
          ⟨node, _, readable⟩ |
          ⟨front, field, back, raised, left, shape, readable, fails, assigned, stopped⟩
        · exact absurd ⟨known, idle, fun field => readable field (mem_order field)⟩
            (unusable state)
        · have unset : ∀ other, Field.Unset left other ↔
              (other ∈ front → readers.Blank saved other) := by
            intro other
            have distinct : (front ++ field :: back).Nodup := shape ▸ (by decide)
            rw [unset_assign distinct.of_append_left (fun _ _ => unset_fresh state _) assigned]
            by_cases member : other ∈ front
            · simp [member]
            · simp [member, unset_fresh]
          rw [restoreNode_eq known idle, discardable_iff known idle shape readable fails]
          unfold restoreFields
          rw [stopped]
          dsimp only
          rcases discard_cases left raised with ⟨escapes, same⟩ | ⟨caught, same⟩
          · rw [same]
            refine iff_of_false ?_ (fun both => escapes both.1)
            rintro ⟨node, restored, _⟩
            cases restored
          · rw [same]
            constructor
            · rintro ⟨node, restored, reset⟩
              obtain rfl := Except.ok.inj restored
              exact ⟨caught, fun earlier =>
                (unset earlier).mp (reset_discarded_iff.mp reset earlier)⟩
            · rintro ⟨_, blank⟩
              exact ⟨_, rfl, reset_discarded_iff.mpr fun other =>
                (unset other).mpr (blank other)⟩

theorem pending_of_unusable (unusable : ∀ state, ¬ readers.Usable saved state)
    {node : GraphNode} (restored : readers.restoreNode saved {} = .ok node) :
    node.state = .pending := by
  cases known : stepState saved.state with
  | none =>
      unfold restoreNode Json.tryRepr at restored
      rw [known] at restored
      cases printed : (saved.value "state").printable with
      | false =>
          rw [printed] at restored
          cases restored
      | true =>
          rw [printed] at restored
          rw [← Except.ok.inj restored]
  | some state =>
      by_cases idle : state = .running
      · subst idle
        unfold restoreNode at restored
        rw [known] at restored
        rw [← Except.ok.inj restored]
      · rw [restoreNode_eq known idle] at restored
        unfold restoreFields at restored
        rcases readers.assign_cases saved Field.order { state } with
          ⟨node, _, readable⟩ | ⟨_, _, _, raised, left, _, _, _, _, stopped⟩
        · exact absurd ⟨known, idle, fun field => readable field (mem_order field)⟩
            (unusable state)
        · rw [stopped] at restored
          dsimp only at restored
          rcases discard_cases left raised with ⟨_, same⟩ | ⟨_, same⟩
          · rw [same] at restored
            cases restored
          · rw [same] at restored
            rw [← Except.ok.inj restored]

/-- A restored node does not run. -/
theorem restoreNode_idle {node restored : GraphNode} (idle : node.state ≠ .running)
    (done : readers.restoreNode saved node = .ok restored) : restored.state ≠ .running := by
  cases known : stepState saved.state with
  | none =>
      unfold restoreNode Json.tryRepr at done
      rw [known] at done
      cases printed : (saved.value "state").printable with
      | false =>
          rw [printed] at done
          cases done
      | true =>
          rw [printed] at done
          rw [← Except.ok.inj done]
          exact idle
  | some state =>
      by_cases runs : state = .running
      · subst runs
        unfold restoreNode at done
        rw [known] at done
        rw [← Except.ok.inj done]
        exact idle
      · rw [restoreNode_eq known runs] at done
        unfold restoreFields at done
        split at done
        · next left assigned =>
            rw [← Except.ok.inj done, state_assign assigned]
            exact runs
        · next raised left _ =>
            rcases discard_cases left raised with ⟨_, same⟩ | ⟨_, same⟩
            · rw [same] at done
              cases done
            · rw [same] at done
              rw [← Except.ok.inj done]
              exact (by decide : StepState.pending ≠ .running)

/-! ## All entries -/

/-- What becomes of a fresh node under an entry. -/
def settled (readers : Readers) (graph : TaskGraph) (id : String) (value : Json) :
    Except Raised GraphNode :=
  match value with
  | .obj saved => if id ∈ graph.ids then readers.restoreNode saved {} else .ok {}
  | _ => .ok {}

variable {graph : TaskGraph}

theorem restoreEntry_eq (nodes : String → GraphNode) (entry : String × Json)
    (fresh : nodes entry.1 = {}) :
    readers.restoreEntry graph nodes entry =
      (readers.settled graph entry.1 entry.2).map (Function.update nodes entry.1) := by
  have unchanged : Function.update nodes entry.1 {} = nodes := by
    rw [← fresh]
    exact Function.update_eq_self entry.1 nodes
  rcases entry with ⟨id, value⟩
  cases value with
  | obj saved =>
      unfold restoreEntry settled
      by_cases member : id ∈ graph.ids
      · simp only [if_pos member, fresh]
        rfl
      · simp only [if_neg member, Except.map, unchanged]
  | _ => exact congrArg Except.ok unchanged.symm

/-- The entries settle their nodes independently, and the others stay as they are. -/
theorem restoreEntries_ok_iff {entries : List (String × Json)}
    (distinct : (entries.map (·.1)).Nodup) {nodes restored : String → GraphNode}
    (fresh : ∀ entry ∈ entries, nodes entry.1 = {}) :
    entries.foldlM (readers.restoreEntry graph) nodes = .ok restored ↔
      (∀ entry ∈ entries, readers.settled graph entry.1 entry.2 = .ok (restored entry.1)) ∧
        ∀ id ∉ entries.map (·.1), restored id = nodes id := by
  induction entries generalizing nodes with
  | nil =>
      constructor
      · intro same
        obtain rfl := Except.ok.inj same
        simp
      · rintro ⟨_, same⟩
        exact congrArg Except.ok (funext fun id => (same id List.not_mem_nil).symm)
  | cons entry rest induction =>
      rw [List.map_cons, List.nodup_cons] at distinct
      rw [List.foldlM_cons, restoreEntry_eq nodes entry (fresh entry List.mem_cons_self)]
      cases settles : readers.settled graph entry.1 entry.2 with
      | error raised =>
          constructor
          · intro restores
            cases restores
          · rintro ⟨all, _⟩
            have settled := all entry List.mem_cons_self
            rw [settles] at settled
            cases settled
      | ok node =>
          have later : ∀ other ∈ rest, Function.update nodes entry.1 node other.1 = {} := by
            intro other member
            have different : other.1 ≠ entry.1 :=
              fun same => distinct.1 (same ▸ List.mem_map_of_mem member)
            rw [Function.update_of_ne different]
            exact fresh other (List.mem_cons_of_mem entry member)
          refine (induction distinct.2 later).trans ?_
          rw [List.forall_mem_cons, settles]
          constructor
          · rintro ⟨settled, same⟩
            have own : restored entry.1 = node := by
              rw [same entry.1 distinct.1, Function.update_self]
            refine ⟨⟨congrArg Except.ok own.symm, settled⟩, fun id outside => ?_⟩
            rw [List.map_cons, List.mem_cons, not_or] at outside
            rw [same id outside.2, Function.update_of_ne outside.1]
          · rintro ⟨⟨own, settled⟩, same⟩
            refine ⟨settled, fun id outside => ?_⟩
            by_cases mine : id = entry.1
            · subst mine
              rw [Function.update_self]
              exact (Except.ok.inj own).symm
            · rw [Function.update_of_ne mine]
              exact same id (by simp [mine, outside])

/-- What becomes of a step's node: that of its entry, or a fresh one. -/
def settledAt (readers : Readers) (graph : TaskGraph) (entries : List (String × Json))
    (id : String) : Except Raised GraphNode :=
  match Json.lookup id entries with
  | some value => readers.settled graph id value
  | none => .ok {}

theorem lookup_of_mem {entries : List (String × Json)}
    (distinct : (entries.map (·.1)).Nodup) {entry : String × Json} (member : entry ∈ entries) :
    Json.lookup entry.1 entries = some entry.2 := by
  induction entries with
  | nil => cases member
  | cons first rest induction =>
      rw [List.map_cons, List.nodup_cons] at distinct
      rcases List.mem_cons.mp member with rfl | later
      · simp [Json.lookup]
      · have different : first.1 ≠ entry.1 :=
          fun same => distinct.1 (same ▸ List.mem_map_of_mem later)
        simpa [Json.lookup, different] using induction distinct.2 later

theorem mem_of_lookup {entries : List (String × Json)} {id : String} {value : Json}
    (found : Json.lookup id entries = some value) : (id, value) ∈ entries := by
  unfold Json.lookup at found
  rcases Option.map_eq_some_iff.mp found with ⟨entry, first, rfl⟩
  have named := List.find?_some first
  rw [beq_iff_eq] at named
  subst named
  exact List.mem_of_find?_eq_some first

/-- The loop restores each node on its own. -/
theorem restoreAll_ok_iff {entries : List (String × Json)}
    (distinct : (entries.map (·.1)).Nodup) {restored : String → GraphNode} :
    entries.foldlM (readers.restoreEntry graph) (fun _ => {}) = .ok restored ↔
      ∀ id, readers.settledAt graph entries id = .ok (restored id) := by
  rw [restoreEntries_ok_iff distinct fun _ _ => rfl]
  constructor
  · rintro ⟨settled, fresh⟩ id
    unfold settledAt
    cases found : Json.lookup id entries with
    | some value => exact settled _ (mem_of_lookup found)
    | none =>
        refine congrArg Except.ok (fresh id ?_).symm
        intro listed
        rcases List.mem_map.mp listed with ⟨entry, member, rfl⟩
        rw [lookup_of_mem distinct member] at found
        cases found
  · intro settled
    constructor
    · intro entry member
      have own := settled entry.1
      unfold settledAt at own
      rwa [lookup_of_mem distinct member] at own
    · intro id outside
      have own := settled id
      unfold settledAt at own
      cases found : Json.lookup id entries with
      | some value => exact absurd (List.mem_map_of_mem (mem_of_lookup found)) outside
      | none =>
          rw [found] at own
          exact (Except.ok.inj own).symm

/-- No step of a restored graph runs. -/
theorem restore_idle {plan : Plan} {snapshot : Json} {nodes : String → GraphNode}
    (restored : readers.restore plan snapshot = .ok (graph, nodes)) (id : String) :
    (nodes id).state ≠ .running := by
  unfold restore at restored
  split at restored
  · cases restored
  · split at restored
    · cases restored
    · next all =>
        obtain ⟨rfl, rfl⟩ := Prod.mk.inj (Except.ok.inj restored)
        refine foldlM_keeps (fun nodes : String → GraphNode => ∀ id, (nodes id).state ≠ .running)
          ?_ (fun _ => by decide) all id
        rintro ⟨key, value⟩ _ nodes next idle done other
        unfold restoreEntry at done
        split at done
        · next saved _ =>
            split at done
            · rcases except_bind_eq_ok.mp done with ⟨node, settled, done⟩
              rw [← Except.ok.inj done]
              by_cases same : other = key
              · subst same
                rw [Function.update_self]
                exact restoreNode_idle (idle other) settled
              · rw [Function.update_of_ne same]
                exact idle other
            · obtain rfl := Except.ok.inj done
              exact idle other
        · obtain rfl := Except.ok.inj done
          exact idle other

/-! ## A whole snapshot -/

/-- The step's entry is a dict that is kept, with the state. -/
def SavedAs (readers : Readers) (snapshot : Json) (id : String) (state : StepState) : Prop :=
  ∃ saved, Json.lookup id (entries snapshot) = some (.obj saved) ∧ readers.Usable saved state

/-- The node has the saved state and every field of its entry. -/
def Kept (readers : Readers) (snapshot : Json) (id : String) (node : GraphNode) : Prop :=
  ∃ saved state, Json.lookup id (entries snapshot) = some (.obj saved) ∧
    readers.Usable saved state ∧ readers.assign saved Field.order { state } = .ok node

/-- The restored graph is whole, and no step is ahead of its dependencies. -/
structure Tolerated (readers : Readers) (graph : TaskGraph) (snapshot : Json)
    (nodes : String → GraphNode) : Prop where
  whole : ∀ id ∈ graph.ids, readers.Kept snapshot id (nodes id) ∨ Reset (nodes id)
  grounded : ∀ step ∈ graph.steps,
    (nodes step.id).state ∈ [StepState.succeeded, .ready, .running] →
    ∀ dependency ∈ step.dependencies, (nodes dependency).state = .succeeded

/-- The restore returns, and with such a graph. -/
def Tolerates (readers : Readers) (plan : Plan) (snapshot : Json) : Prop :=
  ∃ graph nodes, readers.restore plan snapshot = .ok (graph, nodes) ∧
    readers.Tolerated graph snapshot nodes

/-- Every entry of the graph can be used or discarded, and the steps saved as `SUCCEEDED`
or `READY` stand on steps saved as `SUCCEEDED`. -/
structure Harmless (readers : Readers) (graph : TaskGraph) (snapshot : Json) : Prop where
  discardable : ∀ id ∈ graph.ids, ∀ saved,
    Json.lookup id (entries snapshot) = some (.obj saved) → readers.Discardable saved
  grounded : ∀ step ∈ graph.steps, readers.SavedAs snapshot step.id .succeeded ∨
      readers.SavedAs snapshot step.id .ready →
    ∀ dependency ∈ step.dependencies, readers.SavedAs snapshot dependency .succeeded

theorem settledAt_of_dict {entries : List (String × Json)} {id : String}
    (member : id ∈ graph.ids) {saved : Saved}
    (found : Json.lookup id entries = some (.obj saved)) :
    readers.settledAt graph entries id = readers.restoreNode saved {} := by
  unfold settledAt settled
  rw [found]
  exact if_pos member

private theorem settledAt_of_no_dict {entries : List (String × Json)} {id : String}
    (none : ∀ saved, Json.lookup id entries ≠ some (.obj saved)) :
    readers.settledAt graph entries id = .ok {} := by
  unfold settledAt settled
  cases found : Json.lookup id entries with
  | none => rfl
  | some value =>
      cases value with
      | obj saved => exact absurd found (none saved)
      | _ => rfl

private theorem discardable_of_usable {state : StepState}
    (usable : readers.Usable saved state) : readers.Discardable saved := by
  constructor
  · intro unknown
    rw [usable.1] at unknown
    cases unknown
  · intro _ _ _ _ field _ raised _ _ fails
    rcases usable.2.2 field with ⟨write, reads⟩
    rw [fails] at reads
    cases reads

/-- A restored node is that of its entry, or pending. -/
theorem restored_cases {snapshot : Json} {id : String} (member : id ∈ graph.ids)
    {node : GraphNode}
    (settles : readers.settledAt graph (entries snapshot) id = .ok node) :
    (∃ state, readers.SavedAs snapshot id state ∧ node.state = state ∧
      readers.Kept snapshot id node) ∨
    (∀ state, ¬ readers.SavedAs snapshot id state) ∧ node.state = .pending := by
  by_cases dict : ∃ saved, Json.lookup id (entries snapshot) = some (.obj saved)
  · rcases dict with ⟨saved, found⟩
    rw [settledAt_of_dict member found] at settles
    by_cases usable : ∃ state, readers.Usable saved state
    · rcases usable with ⟨state, usable⟩
      rcases restoreNode_of_usable usable with ⟨kept, restored, assigned, same⟩
      obtain rfl := Except.ok.inj (restored.symm.trans settles)
      exact .inl ⟨state, ⟨saved, found, usable⟩, same, saved, state, found, usable, assigned⟩
    · have unusable : ∀ state, ¬ readers.Usable saved state :=
        fun state usable' => usable ⟨state, usable'⟩
      refine .inr ⟨?_, pending_of_unusable unusable settles⟩
      rintro state ⟨other, named, usable'⟩
      obtain rfl := Json.obj.inj (Option.some.inj (named.symm.trans found))
      exact unusable state usable'
  · have none : ∀ saved, Json.lookup id (entries snapshot) ≠ some (.obj saved) :=
      fun saved found => dict ⟨saved, found⟩
    rw [settledAt_of_no_dict none] at settles
    obtain rfl := Except.ok.inj settles
    exact .inr ⟨fun state => fun ⟨saved, found, _⟩ => none saved found, rfl⟩

/-- A step's node is restored whole, or as a fresh one, if and only if its entry can be
used or discarded. -/
theorem exists_whole_iff {snapshot : Json} {id : String} (member : id ∈ graph.ids) :
    (∃ node, readers.settledAt graph (entries snapshot) id = .ok node ∧
      (readers.Kept snapshot id node ∨ Reset node)) ↔
    ∀ saved, Json.lookup id (entries snapshot) = some (.obj saved) →
      readers.Discardable saved := by
  by_cases dict : ∃ saved, Json.lookup id (entries snapshot) = some (.obj saved)
  · rcases dict with ⟨saved, found⟩
    have only : (∀ other, Json.lookup id (entries snapshot) = some (.obj other) →
        readers.Discardable other) ↔ readers.Discardable saved := by
      constructor
      · exact fun all => all saved found
      · intro discardable other named
        obtain rfl := Json.obj.inj (Option.some.inj (named.symm.trans found))
        exact discardable
    rw [only, settledAt_of_dict member found]
    by_cases usable : ∃ state, readers.Usable saved state
    · rcases usable with ⟨state, usable⟩
      rcases restoreNode_of_usable usable with ⟨node, restored, assigned, _⟩
      exact iff_of_true
        ⟨node, restored, .inl ⟨saved, state, found, usable, assigned⟩⟩
        (discardable_of_usable usable)
    · have unusable : ∀ state, ¬ readers.Usable saved state :=
        fun state usable' => usable ⟨state, usable'⟩
      rw [← restoreNode_of_unusable unusable]
      constructor
      · rintro ⟨node, restored, ⟨other, state, named, usable', _⟩ | reset⟩
        · obtain rfl := Json.obj.inj (Option.some.inj (named.symm.trans found))
          exact absurd usable' (unusable state)
        · exact ⟨node, restored, reset⟩
      · rintro ⟨node, restored, reset⟩
        exact ⟨node, restored, .inr reset⟩
  · have none : ∀ saved, Json.lookup id (entries snapshot) ≠ some (.obj saved) :=
      fun saved found => dict ⟨saved, found⟩
    rw [settledAt_of_no_dict none]
    exact iff_of_true ⟨{}, rfl, .inr (reset_marked false (.inl rfl))⟩
      (fun saved found => absurd found (none saved))

private theorem SavedAs.unique {snapshot : Json} {id : String} {state other : StepState}
    (first : readers.SavedAs snapshot id state) (second : readers.SavedAs snapshot id other) :
    state = other := by
  rcases first with ⟨saved, found, known, _⟩
  rcases second with ⟨again, found', known', _⟩
  obtain rfl := Json.obj.inj (Option.some.inj (found.symm.trans found'))
  exact Option.some.inj (known.symm.trans known')

/-- A node that is not pending has the state it is saved with. -/
private theorem state_iff {snapshot : Json} {id : String} (member : id ∈ graph.ids)
    {node : GraphNode}
    (settles : readers.settledAt graph (entries snapshot) id = .ok node)
    {state : StepState} (begun : state ≠ .pending) :
    node.state = state ↔ readers.SavedAs snapshot id state := by
  rcases restored_cases member settles with ⟨other, saved, rfl, _⟩ | ⟨unsaved, pending⟩
  · constructor
    · rintro rfl
      exact saved
    · exact fun saved' => saved.unique saved'
  · rw [pending]
    exact iff_of_false (Ne.symm begun) (unsaved state)

/-- No step is ahead of its dependencies if and only if that is so in the snapshot. -/
theorem grounded_iff {snapshot : Json} {nodes : String → GraphNode}
    (settles : ∀ id, readers.settledAt graph (entries snapshot) id = .ok (nodes id)) :
    (∀ step ∈ graph.steps, (nodes step.id).state ∈ [StepState.succeeded, .ready, .running] →
      ∀ dependency ∈ step.dependencies, (nodes dependency).state = .succeeded) ↔
    ∀ step ∈ graph.steps, readers.SavedAs snapshot step.id .succeeded ∨
        readers.SavedAs snapshot step.id .ready →
      ∀ dependency ∈ step.dependencies, readers.SavedAs snapshot dependency .succeeded := by
  refine forall₂_congr fun step listed => ?_
  have ahead : (nodes step.id).state ∈ [StepState.succeeded, .ready, .running] ↔
      readers.SavedAs snapshot step.id .succeeded ∨ readers.SavedAs snapshot step.id .ready := by
    have member := TaskGraph.mem_ids listed
    have never : ¬ readers.SavedAs snapshot step.id .running := fun saved => by
      rcases saved with ⟨_, _, _, idle, _⟩
      exact idle rfl
    simp only [List.mem_cons, List.not_mem_nil, or_false,
      state_iff member (settles step.id) (by decide : StepState.succeeded ≠ .pending),
      state_iff member (settles step.id) (by decide : StepState.ready ≠ .pending),
      state_iff member (settles step.id) (by decide : StepState.running ≠ .pending), never]
  rw [ahead]
  refine imp_congr_right fun _ => forall₂_congr fun dependency named => ?_
  exact state_iff (graph.knownDependencies step listed dependency named) (settles dependency)
    (by decide)

/-- On every valid plan and every JSON value, restoring tolerates the snapshot if and only
if it is harmless. -/
theorem tolerates_iff {plan : Plan} (built : TaskGraph.fromPlan plan = .ok graph)
    (snapshot : Json) (distinct : ((entries snapshot).map (·.1)).Nodup) :
    readers.Tolerates plan snapshot ↔ readers.Harmless graph snapshot := by
  have restores : ∀ nodes, readers.restore plan snapshot = .ok (graph, nodes) ↔
      ∀ id, readers.settledAt graph (entries snapshot) id = .ok (nodes id) := by
    intro nodes
    rw [← restoreAll_ok_iff distinct]
    unfold restore
    rw [built]
    dsimp only
    cases (entries snapshot).foldlM (readers.restoreEntry graph) (fun _ => {}) <;> simp
  constructor
  · rintro ⟨graph', nodes, restored, whole, grounded⟩
    have same : graph' = graph := by
      unfold restore at restored
      rw [built] at restored
      dsimp only at restored
      split at restored
      · cases restored
      · exact (congrArg Prod.fst (Except.ok.inj restored)).symm
    subst same
    have settles := (restores nodes).mp restored
    constructor
    · intro id member
      exact (exists_whole_iff member).mp ⟨nodes id, settles id, whole id member⟩
    · exact (grounded_iff settles).mp grounded
  · rintro ⟨discardable, grounded⟩
    have each : ∀ id, ∃ node, readers.settledAt graph (entries snapshot) id = .ok node ∧
        (id ∈ graph.ids → readers.Kept snapshot id node ∨ Reset node) := by
      intro id
      by_cases member : id ∈ graph.ids
      · rcases (exists_whole_iff member).mpr (discardable id member) with ⟨node, settled, whole⟩
        exact ⟨node, settled, fun _ => whole⟩
      · refine ⟨{}, ?_, fun inside => absurd inside member⟩
        unfold settledAt settled
        cases Json.lookup id (entries snapshot) with
        | none => rfl
        | some value => cases value <;> first | rfl | exact if_neg member
    choose nodes settles whole using each
    exact ⟨graph, nodes, (restores nodes).mpr settles, fun id member => whole id member,
      (grounded_iff settles).mpr grounded⟩

/-- No text is read. -/
def refusing : Readers where
  truncated _ := 0
  intText text := .error ("invalid literal for int() with base 10: " ++ Text.repr text)
  floatOf value := toString value ++ ".0"
  floatText text := .error ("could not convert string to float: " ++ Text.repr text)
  fromisoformat text := .error ("Invalid isoformat string: " ++ Text.repr text)
  toolResult _ := .error "1 validation error for ToolResult"

def singlePlan : Plan where
  id := "p"
  steps := [{ id := "s1" }]

def singleGraph : TaskGraph where
  steps := singlePlan.steps
  uniqueIds := by decide
  knownDependencies := by decide

theorem fromPlan_single : TaskGraph.fromPlan singlePlan = .ok singleGraph := rfl

/-- A snapshot of `singlePlan` with one saved value. -/
def savedAttempts (attempts : Json) : Json :=
  .obj [("nodes", .obj [("s1", .obj [("attempts", attempts)])])]

theorem tolerates_iff_textAttempts :
    refusing.Tolerates singlePlan (savedAttempts (.str "many")) ↔
      refusing.Harmless singleGraph (savedAttempts (.str "many")) :=
  tolerates_iff fromPlan_single _ (by decide)

/-- An infinite count is not caught. -/
theorem infiniteAttempts_escape :
    ¬ ∀ (readers : Readers) (plan : Plan) (graph : TaskGraph) (snapshot : Json),
      TaskGraph.fromPlan plan = .ok graph → ((entries snapshot).map (·.1)).Nodup →
      readers.Tolerates plan snapshot := by
  intro tolerates
  rcases tolerates refusing singlePlan singleGraph (savedAttempts (.float "inf"))
    fromPlan_single (by decide) with ⟨graph, nodes, restored, _⟩
  unfold restore at restored
  rw [fromPlan_single] at restored
  cases restored

end Readers

end Raphael.Agent.Executor
