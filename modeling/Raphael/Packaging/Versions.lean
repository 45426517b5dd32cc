import Raphael.Skills.SkillRegistry

/-! # Versions of the package

The comparison of two versions and the plan of an upgrade. Where a comparison returns, it
agrees with the order of the keys by which skills are sorted, so that it is an order on the
versions that can be compared at all. -/

namespace Raphael.Packaging

open Skills

/-- A part of a version: a chunk of digits is read as a number. -/
inductive VersionPart
  | number (value : Int)
  | text (value : String)
  deriving DecidableEq

def VersionPart.isNumber : VersionPart → Bool
  | .number _ => true
  | .text _ => false

inductive VersionError
  | valueError
  | typeError
  deriving DecidableEq

section Comparison

variable (text : VersionText)

/-- The part that is made of a chunk; none where `int` raises. -/
def partOf (chunk : String) : Option VersionPart :=
  if text.isDigit chunk then (text.readInt chunk).map .number else some (.text chunk)

/-- `parts` of `compare_versions`. -/
def parts (version : String) : Option (List VersionPart) := (chunks version).mapM (partOf text)

/-- The order of two different parts. A number and a text have none. -/
def VersionPart.order : VersionPart → VersionPart → Except VersionError Ordering
  | .number left, .number right => .ok (if left < right then .lt else .gt)
  | .text left, .text right => .ok (if left < right then .lt else .gt)
  | _, _ => .error .typeError

/-- The order of two lists: that of the first two parts that differ, or else of the lengths. -/
def order : List VersionPart → List VersionPart → Except VersionError Ordering
  | [], [] => .ok .eq
  | [], _ :: _ => .ok .lt
  | _ :: _, [] => .ok .gt
  | left :: lefts, right :: rights => if left = right then order lefts rights else left.order right

def compareVersions (left right : String) : Except VersionError Int :=
  match parts text left, parts text right with
  | some lefts, some rights => do
      let greater := (← order lefts rights) == .gt
      let less := (← order lefts rights) == .lt
      return greater.toInt - less.toInt
  | _, _ => .error .valueError

inductive UpgradeAction
  | same
  | upgrade
  | downgrade
  deriving DecidableEq

structure UpgradePlan where
  action : UpgradeAction
  migrate : Bool
  preserveData : Bool := true
  requiresForce : Bool := false
  deriving DecidableEq

def planUpgrade (installed incoming : String) : Except VersionError UpgradePlan := do
  let comparison ← compareVersions text installed incoming
  if comparison = 0 then return { action := .same, migrate := false }
  else if comparison < 0 then return { action := .upgrade, migrate := true }
  else return { action := .downgrade, migrate := false, requiresForce := true }

example : compareVersions asciiText "1.10" "1.9" = .ok 1 := by decide +kernel

/-! ## What is wanted of the comparison -/

/-- The plan for two versions is the action. -/
def Plans (installed incoming : String) (action : UpgradeAction) : Prop :=
  ∃ plan, planUpgrade text installed incoming = .ok plan ∧ plan.action = action

/-- The comparison of any two of the versions returns, changes its sign when they are
exchanged, and is transitive; and an upgrade one way is a downgrade the other way. -/
structure OrdersVersions (versions : List String) : Prop where
  returns : ∀ left ∈ versions, ∀ right ∈ versions,
    ∃ sign, compareVersions text left right = .ok sign
  flips : ∀ left ∈ versions, ∀ right ∈ versions, ∀ sign,
    compareVersions text left right = .ok sign → compareVersions text right left = .ok (-sign)
  transitive : ∀ left ∈ versions, ∀ middle ∈ versions, ∀ right ∈ versions, ∀ first second,
    compareVersions text left middle = .ok first →
      compareVersions text middle right = .ok second → first ≤ 0 → second ≤ 0 →
        ∃ both, compareVersions text left right = .ok both ∧ both ≤ 0 ∧
          (first < 0 ∨ second < 0 → both < 0)
  plans : ∀ left ∈ versions, ∀ right ∈ versions,
    Plans text left right .upgrade ↔ Plans text right left .downgrade

/-- Where two lists of parts differ first, both parts are numbers or both are texts. -/
def SameKinds (lefts rights : List VersionPart) : Prop :=
  ∀ common left right leftRest rightRest, lefts = common ++ left :: leftRest →
    rights = common ++ right :: rightRest → left ≠ right → left.isNumber = right.isNumber

/-- The two versions can be compared. -/
structure Comparable (left right : String) : Prop where
  readableLeft : Readable text left
  readableRight : Readable text right
  kinds : ∀ lefts rights, parts text left = some lefts → parts text right = some rights →
    SameKinds lefts rights

/-! ## The order of the keys -/

namespace VersionPart

/-- The part of the sorting key that is made of the same chunk. -/
def key : VersionPart → Nat ×ₗ Int ×ₗ String
  | .number value => toLex (0, toLex (value, ""))
  | .text value => toLex (1, toLex (0, value))

theorem number_key_lt {left right : Int} :
    key (.number left) < key (.number right) ↔ left < right := by
  simp [key, Prod.Lex.toLex_lt_toLex]

theorem text_key_lt {left right : String} :
    key (.text left) < key (.text right) ↔ left < right := by
  simp [key, Prod.Lex.toLex_lt_toLex]

end VersionPart

theorem versionKey_eq (version : String) :
    versionKey text version = (parts text version).map (List.map VersionPart.key) := by
  unfold versionKey parts
  generalize chunks version = all
  have each : ∀ chunk, chunkKey text chunk = (partOf text chunk).map VersionPart.key := by
    intro chunk
    unfold chunkKey partOf
    split
    · rw [Option.map_map]
      rfl
    · rfl
  induction all with
  | nil => rfl
  | cons chunk rest induction =>
      rw [List.mapM_cons, List.mapM_cons, each, induction]
      cases partOf text chunk with
      | none => rfl
      | some first => cases rest.mapM (partOf text) <;> rfl

/-- How two keys lie to one another. -/
def Lies : Ordering → VersionKey → VersionKey → Prop
  | .lt, left, right => left < right
  | .eq, left, right => left = right
  | .gt, left, right => right < left

theorem VersionPart.order_lies {left right : VersionPart} {outcome : Ordering}
    (ordered : left.order right = .ok outcome) (differ : left ≠ right) (lefts rights : VersionKey) :
    Lies outcome (left.key :: lefts) (right.key :: rights) := by
  have before : ∀ {first second : VersionPart} {firsts seconds : VersionKey},
      first.key < second.key → first.key :: firsts < second.key :: seconds :=
    fun less => List.cons_lt_cons_iff.mpr (.inl less)
  cases left with
  | number left =>
      cases right with
      | number right =>
          have apart : left ≠ right := fun same => differ (congrArg _ same)
          cases ordered
          split
          · next less => exact before (number_key_lt.mpr less)
          · next notLess => exact before (number_key_lt.mpr (by omega))
      | text right => cases ordered
  | text left =>
      cases right with
      | number right => cases ordered
      | text right =>
          have apart : left ≠ right := fun same => differ (congrArg _ same)
          cases ordered
          split
          · next less => exact before (text_key_lt.mpr less)
          · next notLess =>
              exact before (text_key_lt.mpr (lt_of_le_of_ne (not_lt.mp notLess) apart.symm))

/-- Where two lists of parts have an order, it is that of their keys. -/
theorem order_lies {lefts rights : List VersionPart} {outcome : Ordering}
    (ordered : order lefts rights = .ok outcome) :
    Lies outcome (lefts.map VersionPart.key) (rights.map VersionPart.key) := by
  induction lefts, rights using order.induct with
  | case1 =>
      cases ordered
      rfl
  | case2 right rights =>
      cases ordered
      exact List.nil_lt_cons _ _
  | case3 left lefts =>
      cases ordered
      exact List.nil_lt_cons _ _
  | case4 lefts right rights induction =>
      rw [order, if_pos rfl] at ordered
      have lies := induction ordered
      cases outcome with
      | lt => exact List.cons_lt_cons_iff.mpr (.inr ⟨rfl, lies⟩)
      | eq => exact congrArg (List.cons _) lies
      | gt => exact List.cons_lt_cons_iff.mpr (.inr ⟨rfl, lies⟩)
  | case5 left lefts right rights differ =>
      rw [order, if_neg differ] at ordered
      exact VersionPart.order_lies ordered differ _ _

/-- Two lists of parts have an order exactly if they first differ in parts of one kind. -/
theorem order_ok_iff {lefts rights : List VersionPart} :
    (∃ outcome, order lefts rights = .ok outcome) ↔ SameKinds lefts rights := by
  induction lefts, rights using order.induct with
  | case1 =>
      refine iff_of_true ⟨.eq, rfl⟩ fun common _ _ _ _ isLeft => ?_
      cases common <;> cases isLeft
  | case2 right rights =>
      refine iff_of_true ⟨.lt, rfl⟩ fun common _ _ _ _ isLeft => ?_
      cases common <;> cases isLeft
  | case3 left lefts =>
      refine iff_of_true ⟨.gt, rfl⟩ fun common _ _ _ _ _ isRight => ?_
      cases common <;> cases isRight
  | case4 lefts right rights induction =>
      rw [order, if_pos rfl, induction]
      constructor
      · intro kinds common left right' leftRest rightRest isLeft isRight differ
        cases common with
        | nil =>
            cases isLeft
            cases isRight
            exact absurd rfl differ
        | cons first common =>
            cases isLeft
            cases isRight
            exact kinds common left right' leftRest rightRest rfl rfl differ
      · rintro kinds common left right' leftRest rightRest rfl rfl differ
        exact kinds (right :: common) left right' leftRest rightRest rfl rfl differ
  | case5 left lefts right rights differ =>
      rw [order, if_neg differ]
      constructor
      · rintro ⟨outcome, ordered⟩ common left' right' leftRest rightRest isLeft isRight _
        cases common with
        | nil =>
            cases isLeft
            cases isRight
            cases left <;> cases right <;> first | rfl | cases ordered
        | cons first common =>
            cases isLeft
            cases isRight
            exact absurd rfl differ
      · intro kinds
        have same := kinds [] left right lefts rights rfl rfl differ
        cases left <;> cases right <;> first | exact ⟨_, rfl⟩ | cases same

theorem parts_isSome_iff (version : String) :
    (∃ all, parts text version = some all) ↔ Readable text version := by
  rw [← versionKey_isSome_iff, versionKey_eq]
  simp

/-- The sign that tells how two keys lie to one another. -/
def signOf : Ordering → Int
  | .lt => -1
  | .eq => 0
  | .gt => 1

/-- What a comparison returns comes from the order of the parts. -/
theorem compareVersions_eq_ok {left right : String} {sign : Int} :
    compareVersions text left right = .ok sign ↔
      ∃ lefts rights outcome, parts text left = some lefts ∧ parts text right = some rights ∧
        order lefts rights = .ok outcome ∧ sign = signOf outcome := by
  unfold compareVersions
  cases parts text left with
  | none => simp
  | some lefts =>
      cases parts text right with
      | none => simp
      | some rights =>
          cases ordered : order lefts rights with
          | error failure => simp [ordered, bind, Except.bind]
          | ok outcome =>
              have value : (outcome == .gt).toInt - (outcome == .lt).toInt = signOf outcome := by
                cases outcome <;> rfl
              simp [ordered, bind, Except.bind, pure, Except.pure, value, eq_comm]

theorem compareVersions_returns_iff {left right : String} :
    (∃ sign, compareVersions text left right = .ok sign) ↔ Comparable text left right := by
  simp only [compareVersions_eq_ok]
  constructor
  · rintro ⟨_, lefts, rights, outcome, areLefts, areRights, ordered, _⟩
    refine ⟨(parts_isSome_iff text left).mp ⟨lefts, areLefts⟩,
      (parts_isSome_iff text right).mp ⟨rights, areRights⟩, fun lefts' rights' found found' => ?_⟩
    cases areLefts.symm.trans found
    cases areRights.symm.trans found'
    exact order_ok_iff.mp ⟨outcome, ordered⟩
  · intro comparable
    rcases (parts_isSome_iff text left).mpr comparable.readableLeft with ⟨lefts, areLefts⟩
    rcases (parts_isSome_iff text right).mpr comparable.readableRight with ⟨rights, areRights⟩
    rcases order_ok_iff.mpr (comparable.kinds lefts rights areLefts areRights) with
      ⟨outcome, ordered⟩
    exact ⟨_, lefts, rights, outcome, areLefts, areRights, ordered, rfl⟩

/-- What a comparison returns is the order of the keys by which skills are sorted. -/
theorem compareVersions_lies {left right : String} {sign : Int}
    (compared : compareVersions text left right = .ok sign) :
    ∃ lefts rights outcome, versionKey text left = some lefts ∧
      versionKey text right = some rights ∧ Lies outcome lefts rights ∧ sign = signOf outcome := by
  rcases (compareVersions_eq_ok text).mp compared with
    ⟨lefts, rights, outcome, areLefts, areRights, ordered, isSign⟩
  refine ⟨_, _, outcome, ?_, ?_, order_lies ordered, isSign⟩
  · rw [versionKey_eq, areLefts]
    rfl
  · rw [versionKey_eq, areRights]
    rfl

theorem Lies.nonpos_iff {outcome : Ordering} {left right : VersionKey}
    (lies : Lies outcome left right) : signOf outcome ≤ 0 ↔ left ≤ right := by
  cases outcome with
  | lt => exact iff_of_true (by decide) (le_of_lt lies)
  | eq => exact iff_of_true le_rfl (le_of_eq lies)
  | gt => exact iff_of_false (by decide) (not_le_of_gt lies)

theorem Lies.neg_iff {outcome : Ordering} {left right : VersionKey}
    (lies : Lies outcome left right) : signOf outcome < 0 ↔ left < right := by
  cases outcome with
  | lt => exact iff_of_true (by decide) lies
  | eq => exact iff_of_false (by decide) fun less => less.ne lies
  | gt => exact iff_of_false (by decide) (lt_asymm lies)

theorem Lies.swap {outcome other : Ordering} {left right : VersionKey}
    (lies : Lies outcome left right) (back : Lies other right left) :
    signOf other = -signOf outcome := by
  cases outcome with
  | lt =>
      cases other with
      | lt => exact absurd back (lt_asymm lies)
      | eq => exact absurd back.symm (ne_of_lt lies)
      | gt => rfl
  | eq =>
      cases other with
      | lt => exact absurd lies.symm (ne_of_lt back)
      | eq => rfl
      | gt => exact absurd lies (ne_of_lt back)
  | gt =>
      cases other with
      | lt => rfl
      | eq => exact absurd back (ne_of_lt lies)
      | gt => exact absurd back (lt_asymm lies)

variable {text}

theorem plans_iff {installed incoming : String} {action : UpgradeAction} :
    Plans text installed incoming action ↔
      ∃ sign, compareVersions text installed incoming = .ok sign ∧
        action = if sign = 0 then .same else if sign < 0 then .upgrade else .downgrade := by
  unfold Plans planUpgrade
  cases compareVersions text installed incoming with
  | error failure => simp [bind, Except.bind]
  | ok sign =>
      simp only [bind, Except.bind, pure, Except.pure, Except.ok.injEq, exists_eq_left']
      split_ifs <;> simp [eq_comm]

theorem plans_upgrade_iff {installed incoming : String} :
    Plans text installed incoming .upgrade ↔
      ∃ sign, compareVersions text installed incoming = .ok sign ∧ sign < 0 := by
  rw [plans_iff]
  refine exists_congr fun sign => and_congr_right fun _ => ?_
  split_ifs <;> simp <;> omega

theorem plans_downgrade_iff {installed incoming : String} :
    Plans text installed incoming .downgrade ↔
      ∃ sign, compareVersions text installed incoming = .ok sign ∧ 0 < sign := by
  rw [plans_iff]
  refine exists_congr fun sign => and_congr_right fun _ => ?_
  split_ifs <;> simp <;> omega

/-- The comparison orders some versions exactly if any two of them can be compared. -/
theorem ordersVersions_iff (text : VersionText) (first second third : String) :
    OrdersVersions text [first, second, third] ↔
      ∀ left ∈ [first, second, third], ∀ right ∈ [first, second, third],
        Comparable text left right := by
  generalize [first, second, third] = versions
  constructor
  · intro orders left isLeft right isRight
    exact (compareVersions_returns_iff text).mp (orders.returns left isLeft right isRight)
  intro comparable
  have returns : ∀ left ∈ versions, ∀ right ∈ versions,
      ∃ sign, compareVersions text left right = .ok sign := fun left isLeft right isRight =>
    (compareVersions_returns_iff text).mpr (comparable left isLeft right isRight)
  have flips : ∀ left ∈ versions, ∀ right ∈ versions, ∀ sign,
      compareVersions text left right = .ok sign →
        compareVersions text right left = .ok (-sign) := by
    intro left isLeft right isRight sign compared
    rcases returns right isRight left isLeft with ⟨other, back⟩
    rcases compareVersions_lies text compared with ⟨lefts, rights, _, isKey, isKey', lies, rfl⟩
    rcases compareVersions_lies text back with ⟨_, _, _, same, same', lies', rfl⟩
    cases isKey.symm.trans same'
    cases isKey'.symm.trans same
    rw [back, lies.swap lies']
  refine ⟨returns, flips, ?_, ?_⟩
  · intro left isLeft middle isMiddle right isRight _ _ compared compared' before before'
    rcases returns left isLeft right isRight with ⟨both, across⟩
    rcases compareVersions_lies text compared with ⟨_, _, _, isKey, isMid, lies, rfl⟩
    rcases compareVersions_lies text compared' with ⟨_, _, _, isMid', isKey', lies', rfl⟩
    rcases compareVersions_lies text across with ⟨_, _, _, same, same', liesAcross, rfl⟩
    cases isKey.symm.trans same
    cases isKey'.symm.trans same'
    cases isMid.symm.trans isMid'
    rw [lies.neg_iff, lies'.neg_iff]
    rw [lies.nonpos_iff] at before
    rw [lies'.nonpos_iff] at before'
    refine ⟨_, across, liesAcross.nonpos_iff.mpr (before.trans before'), fun strict => ?_⟩
    rw [liesAcross.neg_iff]
    exact strict.elim (fun less => lt_of_lt_of_le less before') (lt_of_le_of_lt before)
  · intro left isLeft right isRight
    rw [plans_upgrade_iff, plans_downgrade_iff]
    constructor
    · rintro ⟨sign, compared, negative⟩
      exact ⟨-sign, flips left isLeft right isRight sign compared, by omega⟩
    · rintro ⟨sign, compared, positive⟩
      exact ⟨-sign, flips right isRight left isLeft sign compared, by omega⟩

/-- A number and a text at one place are not compared. -/
theorem compareVersions_raises :
    compareVersions asciiText "1.0" "1.a" = .error .typeError ∧
      ¬ OrdersVersions asciiText ["1.0", "1.a", "1.a"] := by
  have raised : compareVersions asciiText "1.0" "1.a" = .error .typeError := by decide +kernel
  refine ⟨raised, fun orders => ?_⟩
  rcases orders.returns "1.0" List.mem_cons_self "1.a" (by decide) with ⟨sign, compared⟩
  cases raised.symm.trans compared

end Comparison

end Raphael.Packaging
