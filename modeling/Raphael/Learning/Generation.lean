import Mathlib.Data.List.FinRange
import Mathlib.Data.List.Indexes
import Raphael.Foundation.FallibleFold
import Raphael.Learning.Pipeline

/-! # Generation of proposals

Patterns are mined from usage events, and a proposal is filed for each of them that is
confident enough. One that touches security raises, and ends the generation. -/

namespace Raphael.Learning

open Core Foundation Persistence Personalization

structure UsageEvent where
  category : String := ""
  action : String := ""
  success : Bool := true

structure UsagePattern (Score : Type) where
  id : String := ""
  patternType : String := ""
  description : String := ""
  evidenceCount : Nat := 0
  confidence : Score
  scope : String := ""
  evidence : List String := []

/-! ## Aggregation -/

/-- `Counter(items)`; the order of its keys is not that of the source, which sorts them. -/
def counter {Key : Type} [DecidableEq Key] (items : List Key) : List (Key × Nat) :=
  items.dedup.map fun key => (key, items.count key)

/-- `sorted(counts.items())`, for keys that are pairs of texts. -/
def sortedCounts (counts : List ((String × String) × Nat)) :
    List ((String × String) × Nat) :=
  counts.insertionSort fun first second =>
    first.1.1 < second.1.1 ∨ first.1.1 = second.1.1 ∧ first.1.2 ≤ second.1.2

namespace UsageAggregator

def counts (events : List UsageEvent) : List ((String × String) × Nat) :=
  counter (events.map fun event => (event.category, event.action))

/-- The successful ones among the events of an action, and how many there are. -/
def successes (events : List UsageEvent) (category action : String) : Nat × Nat :=
  let relevant := events.filter fun event =>
    event.category = category && event.action = action
  (relevant.countP (·.success), relevant.length)

/-- `sequences` of length two. -/
def sequences (events : List UsageEvent) (category : String) :
    List ((String × String) × Nat) :=
  let actions := (events.filter fun event => event.category = category).map
    UsageEvent.action
  counter (actions.zip actions.tail)

end UsageAggregator

/-! ## Detection -/

/-- The detector, with what it computes in floats. -/
structure PatternDetector (Score : Type) where
  minEvidence : Int := 3
  /-- `_confidence`. -/
  confidence : Nat → Score
  /-- `successes / total < 0.5`. -/
  failsOften : (successes total : Nat) → Bool
  /-- The rate as a percentage without decimals. -/
  percent : (successes total : Nat) → String

namespace PatternDetector

variable {Score : Type} (detector : PatternDetector Score)

/-- A pattern with a given evidence, which has no id yet. -/
def pattern (patternType description scope : String) (count : Nat) (evidence : List String) :
    UsagePattern Score :=
  { patternType, description, scope, evidence
    evidenceCount := count
    confidence := detector.confidence count }

/-- The patterns of an action: it is used often, and it fails often. -/
def actionPatterns (events : List UsageEvent) (scope : String)
    (counted : (String × String) × Nat) : List (UsagePattern Score) :=
  let ((category, action), count) := counted
  let enough : Bool := detector.minEvidence ≤ count
  let evidence := [category ++ ":" ++ action ++ "x" ++ toString count]
  let (successes, total) := UsageAggregator.successes events category action
  let tool := detector.pattern "frequently_used_tool"
    ("Tool " ++ Text.repr action ++ " used " ++ toString count ++ " times.") scope count evidence
  let model := detector.pattern "frequently_used_model"
    ("Model " ++ Text.repr action ++ " used " ++ toString count ++ " times.") scope count evidence
  let failure := detector.pattern "repeated_failure"
    (category ++ ":" ++ action ++ " fails often (" ++ detector.percent successes total ++
      " success).") scope count evidence
  (if category = "tool" ∧ enough then [tool] else []) ++
    (if category = "model" ∧ enough then [model] else []) ++
    (if detector.failsOften successes total ∧ enough then [failure] else [])

/-- The pattern of two tools in a row. -/
def workflowPatterns (scope : String) (counted : (String × String) × Nat) :
    List (UsagePattern Score) :=
  let ((first, second), count) := counted
  let sequence := first ++ " -> " ++ second
  let workflow := detector.pattern "repeated_workflow"
    ("Workflow " ++ sequence ++ " seen " ++ toString count ++ " times.") scope count
    (List.replicate count sequence)
  if detector.minEvidence ≤ count then [workflow] else []

/-- The patterns in order, under new ids. -/
def detect (ids : Nat → String) (events : List UsageEvent) (scope : String) :
    List (UsagePattern Score) :=
  let patterns :=
    (sortedCounts (UsageAggregator.counts events)).flatMap (detector.actionPatterns events scope) ++
      (sortedCounts (UsageAggregator.sequences events "tool")).flatMap
        (detector.workflowPatterns scope)
  patterns.mapIdx fun index pattern => { pattern with id := ids index }

end PatternDetector

/-! ## Proposals -/

def forbiddenKinds : List String :=
  ["policy", "policies", "permission", "permissions", "authorize", "authorized",
    "authorization", "risk", "sandbox", "secret", "secrets"]

namespace ProposalEngine

variable {Score : Type}

/-- `_KIND_FOR_PATTERN`. -/
def kindFor (patternType : String) : ProposalKind :=
  if patternType = "frequently_used_model" then .modelHint else .workflowHint

/-- `_content_for`. -/
def contentFor (pattern : UsagePattern Score) (kind : ProposalKind) : String :=
  if kind = .modelHint then "Consider preferring " ++ pattern.description
  else "Noticed pattern: " ++ pattern.description

/-- The content that a proposal for the pattern has touches security. -/
def touchesSecurity (pattern : UsagePattern Score) : Bool :=
  hasHint (contentFor pattern (kindFor pattern.patternType)) forbiddenKinds

/-- The proposal for a pattern. -/
def proposalFor (stamp : Stamp) (pattern : UsagePattern Score) : LearningProposal Score where
  id := stamp.id
  createdAt := stamp.now
  updatedAt := stamp.now
  kind := kindFor pattern.patternType
  content := contentFor pattern (kindFor pattern.patternType)
  patternId := pattern.id
  confidence := pattern.confidence
  scope := pattern.scope
  provenance := ((Dict.empty.set "pattern_type" (.str pattern.patternType)).set
    "evidence" (.arr (pattern.evidence.map .str))).set
    "evidence_count" (.int pattern.evidenceCount)

def propose (stamp : Stamp) (pattern : UsagePattern Score) :
    Except Error (LearningProposal Score) :=
  if touchesSecurity pattern then
    .error (.domainValidation "proposals must never touch security policy")
  else .ok (proposalFor stamp pattern)

end ProposalEngine

def createProposal {Score : Type} (now : Int) (proposal : LearningProposal Score) :
    LearningM Score (LearningProposal Score) := fun state =>
  match state.proposals.create now proposal with
  | .ok (proposals, created) => .ok created { state with proposals }
  | .error error => .error error state

section Filing

variable {Score : Type}

theorem createProposal_eq_ok {state : LearningState Score} (now : Int)
    {proposal : LearningProposal Score} (unused : state.proposals.get proposal.id = none) :
    ∃ next, createProposal now proposal state = .ok (Entity.touch now proposal) next ∧
      next.proposals.rows = state.proposals.rows ++ [Entity.touch now proposal] := by
  rcases SnapshotTable.create_ok_iff.mpr unused with ⟨⟨proposals, created⟩, written⟩
  rcases SnapshotTable.create_eq_ok written with ⟨rfl, rows, _⟩
  refine ⟨{ state with proposals }, ?_, rows⟩
  unfold createProposal
  rw [written]

/-- An id is not in use where no row has it. -/
theorem get_eq_none_of_rows {table next : SnapshotTable (LearningProposal Score)}
    {proposal : LearningProposal Score} {id : String} (rows : next.rows = table.rows ++ [proposal])
    (unused : table.get id = none) (other : proposal.id ≠ id) : next.get id = none := by
  unfold SnapshotTable.get at unused ⊢
  rw [rows, List.find?_append, unused]
  simpa [Entity.id] using other

/-- The ids of the proposals are new, each a different one. -/
structure FreshOccasions (occasions : Nat → Occasion) (state : LearningState Score) : Prop where
  distinct : Function.Injective fun index => (occasions index).id
  unused : ∀ index, state.proposals.get (occasions index).id = none

/-- The patterns, each with what its proposal finds new. -/
theorem fst_entries (occasions : Nat → Occasion) (patterns : List (UsagePattern Score)) :
    (patterns.mapIdx fun index pattern => (pattern, occasions index)).map Prod.fst =
      patterns := by
  rw [List.mapIdx_eq_ofFn, List.map_ofFn]
  exact List.ofFn_get patterns

theorem FreshOccasions.nodup {occasions : Nat → Occasion} {state : LearningState Score}
    (fresh : FreshOccasions occasions state) (patterns : List (UsagePattern Score)) :
    ((patterns.mapIdx fun index pattern => (pattern, occasions index)).map
      fun entry => entry.2.id).Nodup := by
  rw [List.mapIdx_eq_ofFn, List.map_ofFn, List.nodup_ofFn]
  intro first second same
  exact Fin.ext (fresh.distinct same)

end Filing

namespace LearningPipeline

variable {Score : Type} [LT Score] [DecidableLT Score]

/-- The loop of `generate`, over patterns with what their proposals find new. -/
def generateFrom (pipeline : LearningPipeline Score) :
    List (UsagePattern Score × Occasion) → LearningM Score (List (LearningProposal Score))
  | [] => return []
  | (pattern, occasion) :: rest => do
      if pattern.confidence < pipeline.minConfidence then pipeline.generateFrom rest
      else
        let proposal ← MonadExcept.ofExcept (ProposalEngine.propose occasion.toStamp pattern)
        let created ← createProposal occasion.later proposal
        return created :: (← pipeline.generateFrom rest)

def generate (pipeline : LearningPipeline Score) (detector : PatternDetector Score)
    (ids : Nat → String) (occasions : Nat → Occasion) (events : List UsageEvent)
    (scope : String) : LearningM Score (List (LearningProposal Score)) :=
  pipeline.generateFrom <| (detector.detect ids events scope).mapIdx fun index pattern =>
    (pattern, occasions index)

/-! ## What is filed -/

/-- The pattern reaches the threshold of confidence. -/
def Confident (pipeline : LearningPipeline Score) (pattern : UsagePattern Score) : Bool :=
  !decide (pattern.confidence < pipeline.minConfidence)

/-- The pattern ends the generation. -/
def Blocks (pipeline : LearningPipeline Score) (pattern : UsagePattern Score) : Bool :=
  pipeline.Confident pattern && ProposalEngine.touchesSecurity pattern

/-- A proposal is to be filed for the pattern. -/
def Wanted (pipeline : LearningPipeline Score) (pattern : UsagePattern Score) : Bool :=
  pipeline.Confident pattern && !ProposalEngine.touchesSecurity pattern

/-- The row of a filed proposal. -/
def filed (entry : UsagePattern Score × Occasion) : LearningProposal Score :=
  Entity.touch entry.2.later (ProposalEngine.proposalFor entry.2.toStamp entry.1)

/-- The rows that a generation leaves are those before it, and one for every wanted
pattern. -/
def FilesWanted (pipeline : LearningPipeline Score) (detector : PatternDetector Score)
    (ids : Nat → String) (occasions : Nat → Occasion) (events : List UsageEvent)
    (scope : String) (state : LearningState Score) : Prop :=
  (leaves (pipeline.generate detector ids occasions events scope) state).proposals.rows =
    state.proposals.rows ++
      (((detector.detect ids events scope).mapIdx fun index pattern =>
        (pattern, occasions index)).filter fun entry => pipeline.Wanted entry.1).map filed

section Loop

variable {pipeline : LearningPipeline Score} {entry : UsagePattern Score × Occasion}
  {rest : List (UsagePattern Score × Occasion)} {state : LearningState Score}

theorem generateFrom_of_unconfident (unsure : pipeline.Confident entry.1 = false) :
    pipeline.generateFrom (entry :: rest) = pipeline.generateFrom rest := by
  rw [Confident, Bool.not_eq_false', decide_eq_true_eq] at unsure
  rw [generateFrom, if_pos unsure]

theorem leaves_generateFrom_of_blocks (blocks : pipeline.Blocks entry.1 = true) :
    leaves (pipeline.generateFrom (entry :: rest)) state = state := by
  rw [Blocks, Confident, Bool.and_eq_true, Bool.not_eq_true', decide_eq_false_iff_not] at blocks
  have raises : ProposalEngine.propose entry.2.toStamp entry.1 =
      .error (.domainValidation "proposals must never touch security policy") := by
    rw [ProposalEngine.propose, if_pos blocks.2]
  rw [generateFrom, if_neg blocks.1, leaves, ofExcept_bind_error raises]

theorem leaves_generateFrom_of_wanted (wanted : pipeline.Wanted entry.1 = true)
    (unused : state.proposals.get entry.2.id = none) :
    ∃ next, next.proposals.rows = state.proposals.rows ++ [filed entry] ∧
      leaves (pipeline.generateFrom (entry :: rest)) state =
        leaves (pipeline.generateFrom rest) next := by
  rw [Wanted, Confident, Bool.and_eq_true, Bool.not_eq_true', decide_eq_false_iff_not,
    Bool.not_eq_true'] at wanted
  let proposal := ProposalEngine.proposalFor entry.2.toStamp entry.1
  have proposes : (MonadExcept.ofExcept (ProposalEngine.propose entry.2.toStamp entry.1) :
      LearningM Score _) state = .ok proposal state := by
    rw [ProposalEngine.propose, if_neg (by rw [wanted.2]; nofun)]
    rfl
  have free : state.proposals.get proposal.id = none := unused
  rcases createProposal_eq_ok entry.2.later free with ⟨next, created, rows⟩
  refine ⟨next, rows, ?_⟩
  rw [generateFrom, if_neg wanted.1, leaves_bind_of_ok proposes, leaves_bind_of_ok created,
    leaves_bind_pure]

/-- The loop files a proposal for every wanted pattern in front of the first that blocks. -/
theorem rows_generateFrom (pipeline : LearningPipeline Score)
    {entries : List (UsagePattern Score × Occasion)}
    (distinct : (entries.map fun entry => entry.2.id).Nodup)
    (unused : ∀ entry ∈ entries, state.proposals.get entry.2.id = none) :
    (leaves (pipeline.generateFrom entries) state).proposals.rows =
      state.proposals.rows ++ ((entries.takeWhile fun entry => !pipeline.Blocks entry.1).filter
        fun entry => pipeline.Wanted entry.1).map filed := by
  induction entries generalizing state with
  | nil => exact (List.append_nil _).symm
  | cons entry rest induction =>
      rw [List.map_cons, List.nodup_cons] at distinct
      have later : ∀ entry ∈ rest, state.proposals.get entry.2.id = none :=
        fun entry member => unused entry (List.mem_cons_of_mem _ member)
      cases isConfident : pipeline.Confident entry.1 with
      | false =>
          have passes : pipeline.Blocks entry.1 = false := by
            rw [Blocks, isConfident, Bool.false_and]
          have unwanted : pipeline.Wanted entry.1 = false := by
            rw [Wanted, isConfident, Bool.false_and]
          rw [generateFrom_of_unconfident isConfident, induction distinct.2 later]
          simp [passes, unwanted]
      | true =>
          cases touches : ProposalEngine.touchesSecurity entry.1 with
          | true =>
              have blocks : pipeline.Blocks entry.1 = true := by
                rw [Blocks, isConfident, touches, Bool.and_self]
              rw [leaves_generateFrom_of_blocks blocks]
              simp [blocks]
          | false =>
              have passes : pipeline.Blocks entry.1 = false := by
                rw [Blocks, touches, Bool.and_false]
              have wanted : pipeline.Wanted entry.1 = true := by
                rw [Wanted, isConfident, touches]
                rfl
              rcases leaves_generateFrom_of_wanted wanted (unused entry List.mem_cons_self) with
                ⟨next, rows, leavesRest⟩
              have free : ∀ other ∈ rest, next.proposals.get other.2.id = none := by
                intro other member
                apply get_eq_none_of_rows rows (later other member)
                intro same
                exact distinct.1 (List.mem_map.mpr ⟨other, member, same.symm⟩)
              rw [leavesRest, induction distinct.2 free, rows]
              simp [passes, wanted]

end Loop

/-- Just the wanted patterns have their proposals filed where none of them comes behind one
that blocks. -/
theorem filesWanted_iff (pipeline : LearningPipeline Score) (detector : PatternDetector Score)
    (ids : Nat → String) (occasions : Nat → Occasion) (events : List UsageEvent)
    (scope : String) (state : LearningState Score) (fresh : FreshOccasions occasions state) :
    pipeline.FilesWanted detector ids occasions events scope state ↔
      (detector.detect ids events scope).Pairwise fun earlier later =>
        pipeline.Blocks earlier = true → pipeline.Wanted later = false := by
  let patterns := detector.detect ids events scope
  let entries := patterns.mapIdx fun index pattern => (pattern, occasions index)
  have unused : ∀ entry ∈ entries, state.proposals.get entry.2.id = none := by
    intro entry member
    rcases List.mem_mapIdx.mp member with ⟨index, _, rfl⟩
    exact fresh.unused index
  have rows := pipeline.rows_generateFrom (fresh.nodup patterns) unused
  have treated : pipeline.FilesWanted detector ids occasions events scope state ↔
      (entries.takeWhile fun entry => !pipeline.Blocks entry.1).filter
          (fun entry => pipeline.Wanted entry.1) =
        entries.filter fun entry => pipeline.Wanted entry.1 := by
    unfold FilesWanted generate
    rw [rows, List.append_cancel_left_eq]
    constructor
    · intro same
      apply List.Sublist.eq_of_length ((List.takeWhile_sublist _).filter _)
      simpa using congrArg List.length same
    · intro same
      rw [same]
  have apart : ∀ entry : UsagePattern Score × Occasion,
      pipeline.Blocks entry.1 = true → pipeline.Wanted entry.1 = false := by
    intro entry blocks
    rw [Blocks, Bool.and_eq_true] at blocks
    rw [Wanted, blocks.2, Bool.not_true, Bool.and_false]
  have split : patterns = entries.map Prod.fst := (fst_entries occasions patterns).symm
  change _ ↔ patterns.Pairwise _
  rw [treated, filter_takeWhile_eq_iff apart, split, List.pairwise_map]

end LearningPipeline

/-! ## A security-related tool among others -/

def usageDetector : PatternDetector Nat where
  confidence := id
  failsOften := fun successes total => 2 * successes < total
  percent := fun successes total => toString (100 * successes / total) ++ "%"

def generator : LearningPipeline Nat where
  minConfidence := 1
  floatText := toString

def noProposals : LearningState Nat where
  proposals := SnapshotTable.empty "learning_proposals"
  memories := SnapshotTable.empty "memories"
  preferences := SnapshotTable.empty "preferences"

def numbered (index : Nat) : Occasion where
  id := index.repr
  now := 0
  later := 0

def uses (tool : String) : List UsageEvent :=
  List.replicate 3 { category := "tool", action := tool }

theorem fresh_numbered : FreshOccasions numbered noProposals :=
  ⟨fun _ _ same => Text.decimal_inj same, fun _ => rfl⟩

/-- The pattern of the second tool raises, when that of the first has its proposal. -/
theorem filesWanted_of_last :
    generator.FilesWanted usageDetector Nat.repr numbered (uses "shell.run" ++ uses "zone.policy")
      "" noProposals :=
  (LearningPipeline.filesWanted_iff generator usageDetector Nat.repr numbered
    (uses "shell.run" ++ uses "zone.policy") "" noProposals fresh_numbered).mpr
      (by decide +kernel)

/-- The pattern of the first tool raises, and that of the second has no proposal. -/
theorem security_tool_blocks :
    ¬ ∀ events, generator.FilesWanted usageDetector Nat.repr numbered events "" noProposals := by
  intro files
  have rows := congrArg List.length (files (uses "policy.check" ++ uses "shell.run"))
  revert rows
  decide +kernel

end Raphael.Learning
