import Mathlib.Data.String.Basic
import Raphael.Core.Text
import Raphael.Foundation.Grouping

/-! # Conflicting evidence

Evidence is grouped by topic. Of the items of a topic that make the same claim only the
first is kept, and with it only its source. -/

namespace Raphael.Intelligence

open Core Foundation

/-- One claim with its provenance. -/
structure Evidence where
  id : String
  sourceId : String := ""
  claim : String := ""
  topic : String := ""
deriving DecidableEq

/-- Differing claims on the same topic. -/
structure Conflict where
  topic : String := ""
  evidenceIds : List String := []
  claims : List String := []
  sourceIds : List String := []
  reason : String := ""
deriving DecidableEq

section

variable (lower : String → String)

/-- `item.claim.strip().lower()`. -/
def variantKey (item : Evidence) : String := lower (Text.strip item.claim)

def conflictReason (claims sources : Nat) : String :=
  s!"{claims} differing claims on one topic from {sources} sources; preserved, not merged"

/-- The conflict within one topic. -/
def conflictOf (topic : String) (items : List Evidence) : Option Conflict :=
  let variants := firstBy (variantKey lower) items
  if variants.entries.length < 2 then none
  else
    let sources := sortedSet ((variants.entries.map Prod.snd).map Evidence.sourceId)
    if sources.length < 2 then none
    else
      let ordered := (sorted (variants.entries.map Prod.fst)).filterMap variants.get
      some {
        topic
        evidenceIds := ordered.map Evidence.id
        claims := ordered.map Evidence.claim
        sourceIds := sources
        reason := conflictReason ordered.length sources.length }

def detectConflicts (evidence : List Evidence) : List Conflict :=
  let byTopic := groupBy Evidence.topic evidence
  (sorted (byTopic.entries.map Prod.fst)).filterMap fun topic =>
    (byTopic.get topic).bind (conflictOf lower topic)

/-! ## What the detection promises -/

/-- Two items of a topic from different sources make different claims. -/
def Conflicting (evidence : List Evidence) (topic : String) : Prop :=
  ∃ left ∈ evidence, ∃ right ∈ evidence, left.topic = topic ∧ right.topic = topic ∧
    left.sourceId ≠ right.sourceId ∧ variantKey lower left ≠ variantKey lower right

/-- A conflict's topic, its claims as they are viewed, and its sources. -/
def Conflict.sides {View : Type} (view : String → View) (conflict : Conflict) :
    String × List View × List String :=
  (conflict.topic, conflict.claims.map view, conflict.sourceIds)

/-- The detection is complete, names every side and does not depend on the order. -/
structure Complete {View : Type} (view : String → View) (evidence : List Evidence) : Prop where
  reports (topic : String) :
    (∃ conflict ∈ detectConflicts lower evidence, conflict.topic = topic) ↔
      Conflicting lower evidence topic
  names : ∀ conflict ∈ detectConflicts lower evidence, ∀ item ∈ evidence,
    item.topic = conflict.topic →
    lower (Text.strip item.claim) ∈
      conflict.claims.map (fun claim => lower (Text.strip claim)) →
    item.sourceId ∈ conflict.sourceIds
  orderFree : ∀ other, other.Perm evidence → ∀ side,
    side ∈ (detectConflicts lower other).map (Conflict.sides view) ↔
      side ∈ (detectConflicts lower evidence).map (Conflict.sides view)

/-- Each source of a topic makes a claim that no other source makes, and the items that make
the same claim put it in texts that are viewed alike. -/
structure Unmixed {View : Type} (view : String → View) (evidence : List Evidence)
    (topic : String) : Prop where
  ownClaim : ∀ item ∈ evidence, item.topic = topic → ∃ own ∈ evidence, own.topic = topic ∧
    ∀ other ∈ evidence, other.topic = topic →
      variantKey lower other = variantKey lower own → other.sourceId = item.sourceId
  oneText : ∀ left ∈ evidence, ∀ right ∈ evidence, left.topic = topic → right.topic = topic →
    variantKey lower left = variantKey lower right → view left.claim = view right.claim

/-! ## One topic -/

variable {lower} {topic : String} {items : List Evidence} {conflict : Conflict}

/-- The item stands for its claim: no item in front of it makes the same one. -/
def Kept (lower : String → String) (items : List Evidence) (item : Evidence) : Prop :=
  items.find? (fun other => variantKey lower other = variantKey lower item) = some item

/-- The items that stand for the claims, in the order of the claims. -/
def standing (lower : String → String) (items : List Evidence) : List Evidence :=
  (sortedSet (items.map (variantKey lower))).filterMap fun name =>
    items.find? fun item => variantKey lower item = name

theorem Kept.mem {item : Evidence} (kept : Kept lower items item) : item ∈ items :=
  List.mem_of_find?_eq_some kept

theorem Kept.find {item : Evidence} {name : String} (kept : Kept lower items item)
    (same : variantKey lower item = name) :
    items.find? (fun other => variantKey lower other = name) = some item := by
  subst same
  exact kept

theorem kept_of_mem {item : Evidence} (member : item ∈ items) :
    ∃ first, Kept lower items first ∧ variantKey lower first = variantKey lower item := by
  have found : (items.find? fun other =>
      variantKey lower other = variantKey lower item).isSome := by
    rw [List.find?_isSome]
    exact ⟨item, member, decide_eq_true rfl⟩
  rcases Option.isSome_iff_exists.mp found with ⟨first, isFirst⟩
  have same : variantKey lower first = variantKey lower item := by
    simpa using List.find?_some isFirst
  exact ⟨first, by rw [Kept, same]; exact isFirst, same⟩

theorem mem_standing {item : Evidence} : item ∈ standing lower items ↔ Kept lower items item := by
  rw [standing, List.mem_filterMap]
  constructor
  · rintro ⟨name, -, first⟩
    have same : variantKey lower item = name := by simpa using List.find?_some first
    rw [Kept, same]
    exact first
  · intro kept
    refine ⟨variantKey lower item, ?_, kept⟩
    rw [mem_sortedSet]
    exact List.mem_map_of_mem kept.mem

private theorem sorted_keys (items : List Evidence) :
    sorted ((firstBy (variantKey lower) items).entries.map Prod.fst) =
      sortedSet (items.map (variantKey lower)) := by
  rw [sorted_of_nodup (firstBy (variantKey lower) items).distinct]
  apply sortedSet_congr
  intro name
  rw [mem_keys_firstBy, List.mem_map]

private theorem sources_eq (items : List Evidence) :
    sortedSet (((firstBy (variantKey lower) items).entries.map Prod.snd).map
        Evidence.sourceId) = sortedSet ((standing lower items).map Evidence.sourceId) := by
  apply sortedSet_congr
  intro source
  rw [List.mem_map, List.mem_map]
  simp only [mem_standing, mem_values_firstBy, Kept]

/-- The conflict within a topic in terms of the items that stand for its claims. -/
theorem conflictOf_eq :
    conflictOf lower topic items =
      if (sortedSet (items.map (variantKey lower))).length < 2 then none
      else if (sortedSet ((standing lower items).map Evidence.sourceId)).length < 2 then none
      else some {
        topic
        evidenceIds := (standing lower items).map Evidence.id
        claims := (standing lower items).map Evidence.claim
        sourceIds := sortedSet ((standing lower items).map Evidence.sourceId)
        reason := conflictReason (standing lower items).length
          (sortedSet ((standing lower items).map Evidence.sourceId)).length } := by
  have counted := congrArg List.length (@sorted_keys lower items)
  rw [sorted, List.length_insertionSort, List.length_map] at counted
  have ordered : (sorted ((firstBy (variantKey lower) items).entries.map Prod.fst)).filterMap
      (firstBy (variantKey lower) items).get = standing lower items := by
    rw [sorted_keys, standing]
    congr 1
    funext name
    exact get_firstBy items name
  simp only [conflictOf, counted, ordered, sources_eq]

theorem conflictOf_isSome :
    (conflictOf lower topic items).isSome ↔
      (∃ left ∈ items, ∃ right ∈ items, variantKey lower left ≠ variantKey lower right) ∧
      ∃ left, Kept lower items left ∧ ∃ right, Kept lower items right ∧
        left.sourceId ≠ right.sourceId := by
  have keys := @two_le_length_sortedSet _ _ (items.map (variantKey lower))
  have sources := @two_le_length_sortedSet _ _ ((standing lower items).map Evidence.sourceId)
  simp only [List.mem_map, exists_exists_and_eq_and, mem_standing] at keys sources
  rw [conflictOf_eq, ← keys, ← sources]
  split
  · next few => exact ⟨nofun, fun many => absurd many.1 (by omega)⟩
  · next many =>
      split
      · next few => exact ⟨nofun, fun many => absurd many.2 (by omega)⟩
      · next several => exact ⟨fun _ => ⟨by omega, by omega⟩, fun _ => rfl⟩

theorem conflictOf_fields (reported : conflictOf lower topic items = some conflict) :
    conflict.topic = topic ∧ conflict.claims = (standing lower items).map Evidence.claim ∧
      conflict.sourceIds = sortedSet ((standing lower items).map Evidence.sourceId) := by
  rw [conflictOf_eq] at reported
  split at reported
  · cases reported
  · split at reported
    · cases reported
    · cases reported
      exact ⟨rfl, rfl, rfl⟩

/-! ## All topics -/

variable {evidence : List Evidence}

/-- The items of a topic. -/
abbrev onTopic (topic : String) (evidence : List Evidence) : List Evidence :=
  evidence.filter fun item => item.topic = topic

theorem mem_detectConflicts :
    conflict ∈ detectConflicts lower evidence ↔
      conflictOf lower conflict.topic (onTopic conflict.topic evidence) = some conflict := by
  rw [detectConflicts, List.mem_filterMap]
  constructor
  · rintro ⟨topic, -, reported⟩
    rcases Option.bind_eq_some_iff.mp reported with ⟨items, found, reported⟩
    rw [get_groupBy] at found
    split at found
    · cases found
    · cases found
      rw [(conflictOf_fields reported).1]
      exact reported
  · intro reported
    have nonempty : onTopic conflict.topic evidence ≠ [] := by
      intro empty
      rw [empty, conflictOf_eq] at reported
      simp [sortedSet, sorted] at reported
    have found := @get_groupBy _ _ _ Evidence.topic evidence conflict.topic
    rw [if_neg nonempty] at found
    refine ⟨conflict.topic, ?_, ?_⟩
    · rw [sorted, List.mem_insertionSort, ← Dict.get_isSome, found]
      rfl
    · rw [found]
      exact reported

theorem reported_iff :
    (∃ conflict ∈ detectConflicts lower evidence, conflict.topic = topic) ↔
      (conflictOf lower topic (onTopic topic evidence)).isSome := by
  rw [Option.isSome_iff_exists]
  constructor
  · rintro ⟨conflict, reported, rfl⟩
    exact ⟨conflict, mem_detectConflicts.mp reported⟩
  · rintro ⟨conflict, reported⟩
    have named := (conflictOf_fields reported).1
    refine ⟨conflict, ?_, named⟩
    rw [mem_detectConflicts, named]
    exact reported

theorem mem_onTopic {item : Evidence} :
    item ∈ onTopic topic evidence ↔ item ∈ evidence ∧ item.topic = topic := by
  rw [List.mem_filter, decide_eq_true_iff]

/-- Claims and sources differ as soon as both differ somewhere in the topic. -/
theorem conflicting_iff :
    Conflicting lower evidence topic ↔
      (∃ left ∈ onTopic topic evidence, ∃ right ∈ onTopic topic evidence,
        variantKey lower left ≠ variantKey lower right) ∧
      ∃ left ∈ onTopic topic evidence, ∃ right ∈ onTopic topic evidence,
        left.sourceId ≠ right.sourceId := by
  simp only [mem_onTopic]
  constructor
  · rintro ⟨left, first, right, second, onLeft, onRight, sources, claims⟩
    exact ⟨⟨left, ⟨first, onLeft⟩, right, ⟨second, onRight⟩, claims⟩,
      ⟨left, ⟨first, onLeft⟩, right, ⟨second, onRight⟩, sources⟩⟩
  · rintro ⟨⟨first, isFirst, second, isSecond, claims⟩, left, isLeft, right, isRight, sources⟩
    -- of three claims of two sources, two differ in both
    have differs (one other : Evidence) (isOne : one ∈ evidence ∧ one.topic = topic)
        (isOther : other ∈ evidence ∧ other.topic = topic)
        (both : one.sourceId ≠ other.sourceId ∧
          variantKey lower one ≠ variantKey lower other) : Conflicting lower evidence topic :=
      ⟨one, isOne.1, other, isOther.1, isOne.2, isOther.2, both⟩
    by_contra none
    have agree (one other : Evidence) (isOne : one ∈ evidence ∧ one.topic = topic)
        (isOther : other ∈ evidence ∧ other.topic = topic)
        (apart : one.sourceId ≠ other.sourceId) :
        variantKey lower one = variantKey lower other := by
      by_contra different
      exact none (differs one other isOne isOther ⟨apart, different⟩)
    have same := agree left right isLeft isRight sources
    have all (item : Evidence) (isItem : item ∈ evidence ∧ item.topic = topic) :
        variantKey lower item = variantKey lower left := by
      by_cases fromLeft : item.sourceId = left.sourceId
      · rw [same]
        exact agree item right isItem isRight (fromLeft ▸ sources)
      · exact agree item left isItem isLeft fromLeft
    exact claims ((all first isFirst).trans (all second isSecond).symm)

/-- A topic that is reported is conflicting. -/
theorem conflicting_of_reported (reported : conflict ∈ detectConflicts lower evidence) :
    Conflicting lower evidence conflict.topic := by
  have found := Option.isSome_of_eq_some (mem_detectConflicts.mp reported)
  rcases conflictOf_isSome.mp found with ⟨claims, left, isLeft, right, isRight, sources⟩
  exact conflicting_iff.mpr ⟨claims, left, isLeft.mem, right, isRight.mem, sources⟩

/-! ## Two orders of one list -/

variable {View : Type} {view : String → View} {other : List Evidence}

theorem Conflicting.perm (perm : other.Perm evidence) :
    Conflicting lower other topic ↔ Conflicting lower evidence topic := by
  simp only [Conflicting, perm.mem_iff]

theorem Unmixed.perm (perm : other.Perm evidence) (unmixed : Unmixed lower view evidence topic) :
    Unmixed lower view other topic := by
  constructor
  · simp only [perm.mem_iff]
    exact unmixed.ownClaim
  · simp only [perm.mem_iff]
    exact unmixed.oneText

theorem Unmixed.kept_source (unmixed : Unmixed lower view evidence topic) {item : Evidence}
    (member : item ∈ onTopic topic evidence) :
    ∃ kept, Kept lower (onTopic topic evidence) kept ∧ kept.sourceId = item.sourceId := by
  rcases mem_onTopic.mp member with ⟨held, onIt⟩
  rcases unmixed.ownClaim item held onIt with ⟨own, isOwn, ownTopic, sole⟩
  rcases @kept_of_mem lower _ own (mem_onTopic.mpr ⟨isOwn, ownTopic⟩) with ⟨kept, isKept, same⟩
  rcases mem_onTopic.mp isKept.mem with ⟨isMember, keptTopic⟩
  exact ⟨kept, isKept, sole kept isMember keptTopic same⟩

/-- Unmixed, a topic's conflict names all its sources. -/
theorem Unmixed.sources (unmixed : Unmixed lower view evidence topic) :
    sortedSet ((standing lower (onTopic topic evidence)).map Evidence.sourceId) =
      sortedSet ((onTopic topic evidence).map Evidence.sourceId) := by
  apply sortedSet_congr
  intro source
  rw [List.mem_map, List.mem_map]
  constructor
  · rintro ⟨item, isStanding, rfl⟩
    exact ⟨item, (mem_standing.mp isStanding).mem, rfl⟩
  · rintro ⟨item, member, rfl⟩
    rcases unmixed.kept_source member with ⟨kept, isKept, same⟩
    exact ⟨kept, mem_standing.mpr isKept, same⟩

/-- Unmixed, a conflicting topic is reported. -/
theorem Unmixed.reported (unmixed : Unmixed lower view evidence topic)
    (conflicting : Conflicting lower evidence topic) :
    ∃ conflict ∈ detectConflicts lower evidence, conflict.topic = topic := by
  rcases conflicting_iff.mp conflicting with ⟨claims, left, isLeft, right, isRight, sources⟩
  rcases unmixed.kept_source isLeft with ⟨first, keptFirst, sameLeft⟩
  rcases unmixed.kept_source isRight with ⟨second, keptSecond, sameRight⟩
  rw [reported_iff, conflictOf_isSome]
  refine ⟨claims, first, keptFirst, second, keptSecond, ?_⟩
  rw [sameLeft, sameRight]
  exact sources

private theorem map_some_filterMap {Name Value : Type} {find : Name → Option Value}
    {names : List Name} (found : ∀ name ∈ names, (find name).isSome) :
    (names.filterMap find).map some = names.map find := by
  induction names with
  | nil => rfl
  | cons name rest induction =>
      rcases Option.isSome_iff_exists.mp (found name List.mem_cons_self) with ⟨value, isValue⟩
      rw [List.filterMap_cons_some isValue, List.map_cons, List.map_cons, isValue,
        induction fun other member => found other (List.mem_cons_of_mem name member)]

/-- The claims of a conflict, one for each name. -/
theorem claims_eq (items : List Evidence) :
    (((standing lower items).map Evidence.claim).map view).map some =
      (sortedSet (items.map (variantKey lower))).map fun name =>
        (items.find? fun item => variantKey lower item = name).map fun item =>
          view item.claim := by
  have found : ∀ name ∈ sortedSet (items.map (variantKey lower)),
      (items.find? fun item => variantKey lower item = name).isSome := by
    intro name member
    rw [mem_sortedSet, List.mem_map] at member
    rcases member with ⟨item, held, rfl⟩
    rw [List.find?_isSome]
    exact ⟨item, held, decide_eq_true rfl⟩
  have each := congrArg (List.map (Option.map fun item : Evidence => view item.claim))
    (map_some_filterMap found)
  simpa [standing, Function.comp_def] using each

private theorem names_perm (perm : other.Perm evidence) :
    sortedSet ((onTopic topic other).map (variantKey lower)) =
      sortedSet ((onTopic topic evidence).map (variantKey lower)) := by
  apply sortedSet_congr
  intro name
  exact ((perm.filter _).map _).mem_iff

/-- Unmixed, two orders put the same claims next to each other. -/
theorem Unmixed.claims (unmixed : Unmixed lower view evidence topic)
    (perm : other.Perm evidence) :
    ((standing lower (onTopic topic other)).map Evidence.claim).map view =
      ((standing lower (onTopic topic evidence)).map Evidence.claim).map view := by
  apply List.map_injective_iff.mpr (Option.some_injective View)
  rw [claims_eq, claims_eq, names_perm perm]
  apply List.map_congr_left
  intro name member
  rw [mem_sortedSet, List.mem_map] at member
  rcases member with ⟨item, held, rfl⟩
  rcases @kept_of_mem lower _ item held with ⟨first, keptFirst, sameFirst⟩
  rcases @kept_of_mem lower _ item (((perm.filter _).mem_iff).mpr held) with
    ⟨second, keptSecond, sameSecond⟩
  rw [keptFirst.find sameFirst, keptSecond.find sameSecond, Option.map_some, Option.map_some]
  rcases mem_onTopic.mp keptFirst.mem with ⟨isFirst, onFirst⟩
  rcases mem_onTopic.mp keptSecond.mem with ⟨isSecond, onSecond⟩
  exact congrArg some (unmixed.oneText second (perm.mem_iff.mp isSecond) first isFirst onSecond
    onFirst (sameSecond.trans sameFirst.symm))

/-- Where the conflicting topics are unmixed, the detection is complete. -/
theorem complete_of_unmixed
    (unmixed : ∀ topic, Conflicting lower evidence topic → Unmixed lower view evidence topic) :
    Complete lower view evidence := by
  have carried {left right : List Evidence} (perm : left.Perm right)
      (unmixed : ∀ topic, Conflicting lower right topic → Unmixed lower view right topic) :
      ∀ side ∈ (detectConflicts lower left).map (Conflict.sides view),
        side ∈ (detectConflicts lower right).map (Conflict.sides view) := by
    intro side member
    rcases List.mem_map.mp member with ⟨conflict, reported, rfl⟩
    have conflicting := (Conflicting.perm perm).mp (conflicting_of_reported reported)
    have single := unmixed conflict.topic conflicting
    rcases single.reported conflicting with ⟨twin, found, named⟩
    have fields := conflictOf_fields (mem_detectConflicts.mp reported)
    have twinFields := conflictOf_fields (mem_detectConflicts.mp found)
    refine List.mem_map.mpr ⟨twin, found, ?_⟩
    have sources : twin.sourceIds = conflict.sourceIds := by
      rw [fields.2.2, twinFields.2.2, named, single.sources, (single.perm perm).sources]
      apply sortedSet_congr
      intro source
      exact ((perm.symm.filter _).map _).mem_iff
    have claims : twin.claims.map view = conflict.claims.map view := by
      rw [fields.2.1, twinFields.2.1, named, single.claims perm]
    rw [Conflict.sides, Conflict.sides, named, sources, claims]
  constructor
  · intro topic
    constructor
    · rintro ⟨conflict, reported, rfl⟩
      exact conflicting_of_reported reported
    · intro conflicting
      exact (unmixed topic conflicting).reported conflicting
  · intro conflict reported item member named _
    have single := unmixed conflict.topic (conflicting_of_reported reported)
    rw [(conflictOf_fields (mem_detectConflicts.mp reported)).2.2, single.sources, mem_sortedSet]
    exact List.mem_map_of_mem (mem_onTopic.mpr ⟨member, named⟩)
  · intro other perm side
    constructor
    · exact carried perm unmixed side
    · apply carried perm.symm
      intro topic conflicting
      exact (unmixed topic ((Conflicting.perm perm).mp conflicting)).perm perm

/-! ## What another order shows -/

/-- Reported in one order, a topic is reported in each with the same sides. -/
theorem Complete.reordered (complete : Complete lower view evidence)
    (perm : other.Perm evidence) (conflicting : Conflicting lower evidence topic) :
    ∃ conflict ∈ detectConflicts lower evidence, conflict.topic = topic ∧
      conflict.claims.map view =
        ((standing lower (onTopic topic other)).map Evidence.claim).map view ∧
      conflict.sourceIds = sortedSet ((standing lower (onTopic topic other)).map
        Evidence.sourceId) := by
  rcases (complete.reports topic).mpr conflicting with ⟨conflict, reported, named⟩
  have side := (complete.orderFree other perm (conflict.sides view)).mpr
    (List.mem_map_of_mem reported)
  rcases List.mem_map.mp side with ⟨twin, found, same⟩
  simp only [Conflict.sides, Prod.mk.injEq] at same
  have fields := conflictOf_fields (mem_detectConflicts.mp found)
  rw [same.1, named] at fields
  refine ⟨conflict, reported, named, ?_, ?_⟩
  · rw [← same.2.1, fields.2.1]
  · rw [← same.2.2, fields.2.2]

/-- With some items in front, an item of the front stands for each claim that has one. -/
theorem kept_preferring {preferred : Evidence → Bool} {item : Evidence}
    (member : item ∈ onTopic topic evidence) (chosen : preferred item) :
    ∃ first, Kept lower (onTopic topic (preferring preferred evidence)) first ∧
      preferred first ∧ variantKey lower first = variantKey lower item := by
  rcases @find_preferring _ _ _ (variantKey lower) preferred (onTopic topic evidence)
    (variantKey lower item) ⟨item, member, chosen, rfl⟩ with ⟨first, -, isChosen, same, found⟩
  refine ⟨first, ?_, isChosen, same⟩
  rw [Kept, same, onTopic, filter_preferring]
  exact found

/-- Of a complete detection every source makes a claim of its own. -/
theorem Complete.ownClaim (complete : Complete lower view evidence)
    (conflicting : Conflicting lower evidence topic) {item : Evidence} (member : item ∈ evidence)
    (onIt : item.topic = topic) : ∃ own ∈ evidence, own.topic = topic ∧
      ∀ other ∈ evidence, other.topic = topic →
        variantKey lower other = variantKey lower own → other.sourceId = item.sourceId := by
  by_contra shared
  push Not at shared
  -- the other sources speak first
  let others (other : Evidence) : Bool := other.sourceId ≠ item.sourceId
  rcases complete.reordered (preferring_perm others evidence) conflicting with
    ⟨conflict, reported, named, claims, sources⟩
  have listed : item.sourceId ∈ conflict.sourceIds := by
    apply complete.names conflict reported item member (onIt.trans named.symm)
    rw [(conflictOf_fields (mem_detectConflicts.mp reported)).2.1, named]
    rcases @kept_of_mem lower _ item (mem_onTopic.mpr ⟨member, onIt⟩) with ⟨first, kept, same⟩
    rw [List.map_map]
    exact List.mem_map.mpr ⟨first, mem_standing.mpr kept, same⟩
  rw [sources, mem_sortedSet, List.mem_map] at listed
  rcases listed with ⟨spokesman, standing, same⟩
  have kept := mem_standing.mp standing
  rcases mem_onTopic.mp kept.mem with ⟨held, onTopic⟩
  rcases shared spokesman ((preferring_perm others evidence).mem_iff.mp held) onTopic with
    ⟨other, isOther, onOther, sameClaim, fromOther⟩
  rcases @kept_preferring lower topic evidence others other (mem_onTopic.mpr ⟨isOther, onOther⟩)
    (decide_eq_true fromOther) with ⟨first, keptFirst, chosen, sameFirst⟩
  have twice := (keptFirst.find (sameFirst.trans sameClaim)).symm.trans (kept.find rfl)
  cases twice
  exact of_decide_eq_true chosen same

/-- Of a complete detection one claim is put in one text. -/
theorem Complete.oneText (complete : Complete lower view evidence)
    (conflicting : Conflicting lower evidence topic) {left right : Evidence}
    (isLeft : left ∈ evidence) (isRight : right ∈ evidence) (onLeft : left.topic = topic)
    (onRight : right.topic = topic) (same : variantKey lower left = variantKey lower right) :
    view left.claim = view right.claim := by
  rcases complete.reordered (preferring_perm (· = left) evidence) conflicting with
    ⟨conflict, reported, named, claims, -⟩
  rcases complete.reordered (preferring_perm (· = right) evidence) conflicting with
    ⟨twin, found, twinNamed, twinClaims, -⟩
  have one : conflict = twin := by
    have first := mem_detectConflicts.mp reported
    have second := mem_detectConflicts.mp found
    rw [named] at first
    rw [twinNamed] at second
    exact Option.some.inj (first.symm.trans second)
  subst one
  have agree := congrArg (List.map some) (claims.symm.trans twinClaims)
  rw [claims_eq, claims_eq, names_perm (preferring_perm _ _),
    names_perm (preferring_perm _ _)] at agree
  have name : variantKey lower left ∈
      sortedSet ((onTopic topic evidence).map (variantKey lower)) := by
    rw [mem_sortedSet]
    exact List.mem_map_of_mem (mem_onTopic.mpr ⟨isLeft, onLeft⟩)
  have atName := List.map_inj_left.mp agree _ name
  rcases @kept_preferring lower topic evidence (· = left) left (mem_onTopic.mpr ⟨isLeft, onLeft⟩)
    (decide_eq_true rfl) with ⟨first, keptFirst, chosenFirst, sameFirst⟩
  rcases @kept_preferring lower topic evidence (· = right) right
    (mem_onTopic.mpr ⟨isRight, onRight⟩) (decide_eq_true rfl) with
    ⟨second, keptSecond, chosenSecond, sameSecond⟩
  rw [keptFirst.find sameFirst, keptSecond.find (sameSecond.trans same.symm)] at atName
  cases of_decide_eq_true chosenFirst
  cases of_decide_eq_true chosenSecond
  exact Option.some.inj atName

/-- The detection is complete for a way to view claims exactly where the conflicting topics are
unmixed. -/
theorem complete_iff :
    Complete lower view evidence ↔
      ∀ topic, Conflicting lower evidence topic → Unmixed lower view evidence topic := by
  constructor
  · intro complete topic conflicting
    constructor
    · intro item member onIt
      exact complete.ownClaim conflicting member onIt
    · intro left isLeft right isRight onLeft onRight same
      exact complete.oneText conflicting isLeft isRight onLeft onRight same
  · exact complete_of_unmixed

/-- Claims as they are written: the detection is complete if and only if in each conflicting
topic every source makes a claim of its own and each claim has one text. -/
theorem detectConflicts_complete_iff (lower : String → String) (evidence : List Evidence) :
    Complete lower id evidence ↔
      ∀ topic, Conflicting lower evidence topic → Unmixed lower id evidence topic :=
  complete_iff

/-- Claims up to case and outer space: it remains that every source makes a claim of its own. -/
theorem detectConflicts_normalized_iff (lower : String → String) (evidence : List Evidence) :
    Complete lower (fun claim => lower (Text.strip claim)) evidence ↔
      ∀ topic, Conflicting lower evidence topic →
        ∀ item ∈ evidence, item.topic = topic → ∃ own ∈ evidence, own.topic = topic ∧
          ∀ other ∈ evidence, other.topic = topic →
            variantKey lower other = variantKey lower own → other.sourceId = item.sourceId := by
  rw [complete_iff]
  constructor
  · intro unmixed topic conflicting
    exact (unmixed topic conflicting).ownClaim
  · intro own topic conflicting
    exact ⟨own topic conflicting, fun _ _ _ _ _ _ same => same⟩

/-- Two sources agree and a third differs: the second is not named. -/
def agreedEvidence : List Evidence :=
  [{ id := "e1", sourceId := "s1", claim := "x", topic := "t" },
   { id := "e2", sourceId := "s2", claim := "x", topic := "t" },
   { id := "e3", sourceId := "s3", claim := "y", topic := "t" }]

theorem detectConflicts_drops_source : ¬ Complete id id agreedEvidence := by
  intro complete
  have reported : detectConflicts id agreedEvidence = [{
      topic := "t"
      evidenceIds := ["e1", "e3"]
      claims := ["x", "y"]
      sourceIds := ["s1", "s3"]
      reason := "2 differing claims on one topic from 2 sources; preserved, not merged" }] := by
    decide +kernel
  have named := complete.names
  rw [reported] at named
  exact absurd (named _ List.mem_cons_self ⟨"e2", "s2", "x", "t"⟩ (by decide) rfl (by decide))
    (by decide)

end

end Raphael.Intelligence
