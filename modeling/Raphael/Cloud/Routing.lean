import Mathlib.Algebra.Order.Ring.Rat
import Mathlib.Data.List.Sort
import Mathlib.Data.Prod.Lex
import Mathlib.Data.String.Basic
import Raphael.Core.Text
import Raphael.Foundation.Dict

/-! # Routing of computations

The router's choice of a provider: what is checked before, the filters, and the ranking. The
numbers are rationals. -/

namespace Raphael.Cloud

open Core Foundation

inductive RoutingError
  | noRoute (reason : String)
  | policyRejection (reason : String)
  deriving DecidableEq

def RoutingError.message : RoutingError → String
  | .noRoute reason => "no compute route: " ++ reason
  | .policyRejection reason => "compute policy rejects routing: " ++ reason

structure ComputeRequirements where
  cpu : String := ""
  ramGb : ℚ := 0
  gpu : Bool := false
  vramGb : ℚ := 0
  runtime : String := ""
  model : String := ""
  contextTokens : Int := 0
  durationS : ℚ := 0
  network : Bool := false
  privacy : String := "standard"
  /-- Negative for no ceiling. -/
  maxCost : ℚ := -1
  deadlineS : ℚ := 0

structure ProviderCapabilities where
  name : String := ""
  isLocal : Bool := false
  gpu : Bool := false
  vramGb : ℚ := 0
  ramGb : ℚ := 0
  runtimes : List String := []
  models : List String := []
  network : Bool := true
  costPerHour : ℚ := 0
  latencyClass : String := "standard"
  reliability : ℚ := 1

structure ComputePolicy where
  /-- Empty for all. -/
  allowedProviders : List String := []
  blockedProviders : List String := []
  /-- Negative for no ceiling. -/
  maxCostPerHour : ℚ := -1
  requireLocalForHighPrivacy : Bool := true

structure ComputeTarget where
  provider : String := ""
  reason : String := ""
  estimatedCost : ℚ := 0
  deriving DecidableEq

/-- How numbers and records are written into a text. -/
structure RoutingText where
  number : ℚ → String
  money : ℚ → String
  requirements : ComputeRequirements → String
  policy : ComputePolicy → String

/-- The router, with what is known of the availability of the providers: the call may raise. -/
structure ComputeRouter where
  providers : Dict String ProviderCapabilities := Dict.empty
  availability : String → Except String Bool := fun _ => .ok true
  policy : ComputePolicy := {}

/-- The cost of the requirements at a provider. -/
def costOf (requirements : ComputeRequirements) (caps : ProviderCapabilities) : ℚ :=
  caps.costPerHour * max 0 requirements.durationS / 3600

def latencyRank (latencyClass : String) : Nat :=
  if latencyClass = "fast" then 0
  else if latencyClass = "standard" then 1
  else 2

/-- One of the candidates that are sorted. -/
structure Candidate where
  cost : ℚ
  latency : Nat
  negatedReliability : ℚ
  name : String
  reason : String

/-- The key by which the candidates are sorted. -/
def Candidate.key (candidate : Candidate) : ℚ ×ₗ Nat ×ₗ ℚ ×ₗ String :=
  toLex (candidate.cost, toLex (candidate.latency, toLex (candidate.negatedReliability,
    candidate.name)))

namespace ComputeRouter

variable (text : RoutingText) (router : ComputeRouter) (requirements : ComputeRequirements)

/-- An error of the call means that the provider is down. -/
def available (name : String) : Bool :=
  match router.availability name with
  | .ok answer => answer
  | .error _ => false

def capable (caps : ProviderCapabilities) : Bool :=
  if requirements.gpu && !caps.gpu then false
  else if requirements.vramGb > caps.vramGb then false
  else if requirements.ramGb > caps.ramGb then false
  else if requirements.runtime != "" && !(caps.runtimes.contains requirements.runtime) then false
  else if requirements.model != "" && !(caps.models.contains requirements.model) then false
  else !(requirements.network && !caps.network)

def permitted (name : String) (caps : ProviderCapabilities) : Bool :=
  let policy := router.policy
  if policy.blockedProviders.contains name then false
  else if policy.allowedProviders != [] && !(policy.allowedProviders.contains name) then false
  else if policy.maxCostPerHour ≥ 0 && caps.costPerHour > policy.maxCostPerHour then false
  else if requirements.maxCost ≥ 0 && costOf requirements caps > requirements.maxCost then false
  else true

def localOnly : Bool :=
  requirements.privacy == "high" && router.policy.requireLocalForHighPrivacy

/-- There is a local provider that would be ranked. -/
def localOk : Bool :=
  router.providers.entries.any fun (name, caps) =>
    caps.isLocal && router.available name && capable requirements caps &&
      router.permitted requirements name caps

def affordable : Bool :=
  router.providers.entries.any fun (_, caps) => costOf requirements caps ≤ requirements.maxCost

def validate : Except RoutingError Unit := do
  if router.localOnly requirements then
    if !router.localOk requirements then
      throw (.policyRejection
        "high-privacy work requires local execution, which is unavailable or incapable")
  if requirements.maxCost ≥ 0 then
    if !router.affordable requirements then throw (.policyRejection "no provider within max_cost")

/-- The justification of a target. It always has the price in it. -/
def reason (caps : ProviderCapabilities) : String :=
  let bits := if caps.isLocal then ["local"] else []
  let bits := if requirements.gpu && caps.gpu then
    bits ++ ["gpu+" ++ text.number caps.vramGb ++ "GB VRAM"] else bits
  Text.join ", " (bits ++ ["$" ++ text.money caps.costPerHour ++ "/h"])

/-- One turn of the loop over the providers. -/
def candidate (name : String) (caps : ProviderCapabilities) : Option Candidate :=
  if router.localOnly requirements && !caps.isLocal then none
  else if !(router.available name) then none
  else if !(capable requirements caps) then none
  else if !(router.permitted requirements name caps) then none
  else some {
    cost := costOf requirements caps
    latency := latencyRank caps.latencyClass
    negatedReliability := -caps.reliability
    name
    reason := reason text requirements caps }

def rank : Except RoutingError (List ComputeTarget) := do
  router.validate requirements
  let candidates := router.providers.entries.filterMap fun (name, caps) =>
    router.candidate text requirements name caps
  let sorted := candidates.insertionSort fun left right => left.key ≤ right.key
  return sorted.map fun one =>
    { provider := one.name, reason := one.reason, estimatedCost := one.cost }

def whyEmpty : String :=
  "requirements " ++ text.requirements requirements ++ " match no provider under policy " ++
    text.policy router.policy

def route : Except RoutingError ComputeTarget := do
  let ranked ← router.rank text requirements
  match ranked with
  | [] => throw (.noRoute (router.whyEmpty text requirements))
  | best :: _ => return best

/-- `select_first_available`, with the last failure. The probe may raise. -/
def selectFirstAvailable (probe : String → Except String Bool) :
    List ComputeTarget → (last : String := "") → Except RoutingError ComputeTarget
  | [], last => .error (.noRoute ("all providers failed probing (" ++ last ++ ")"))
  | target :: rest, _ =>
      match probe target.provider with
      | .ok true => .ok target
      | .ok false => selectFirstAvailable probe rest (target.provider ++ " probe failed")
      | .error failure => selectFirstAvailable probe rest failure

end ComputeRouter

/-! ## Which providers are suitable -/

structure Capable (requirements : ComputeRequirements) (caps : ProviderCapabilities) : Prop where
  gpu : requirements.gpu = true → caps.gpu = true
  vram : requirements.vramGb ≤ caps.vramGb
  ram : requirements.ramGb ≤ caps.ramGb
  runtime : requirements.runtime ≠ "" → requirements.runtime ∈ caps.runtimes
  model : requirements.model ≠ "" → requirements.model ∈ caps.models
  network : requirements.network = true → caps.network = true

structure Permitted (policy : ComputePolicy) (requirements : ComputeRequirements) (name : String)
    (caps : ProviderCapabilities) : Prop where
  notBlocked : name ∉ policy.blockedProviders
  allowed : policy.allowedProviders = [] ∨ name ∈ policy.allowedProviders
  hourly : 0 ≤ policy.maxCostPerHour → caps.costPerHour ≤ policy.maxCostPerHour
  total : 0 ≤ requirements.maxCost → costOf requirements caps ≤ requirements.maxCost

namespace ComputeRouter

variable {text : RoutingText} {router : ComputeRouter} {requirements : ComputeRequirements}

/-- The provider is available, capable and permitted, and local where that is demanded. -/
structure Suitable (router : ComputeRouter) (requirements : ComputeRequirements)
    (provider : String × ProviderCapabilities) : Prop where
  registered : provider ∈ router.providers.entries
  available : router.availability provider.1 = .ok true
  capable : Capable requirements provider.2
  permitted : Permitted router.policy requirements provider.1 provider.2
  isLocal : requirements.privacy = "high" → router.policy.requireLocalForHighPrivacy = true →
    provider.2.isLocal = true

/-- What the providers are ranked by. -/
def rankKey (requirements : ComputeRequirements) (provider : String × ProviderCapabilities) :
    ℚ ×ₗ Nat ×ₗ ℚ ×ₗ String :=
  toLex (costOf requirements provider.2, toLex (latencyRank provider.2.latencyClass,
    toLex (-provider.2.reliability, provider.1)))

def targetOf (text : RoutingText) (requirements : ComputeRequirements)
    (provider : String × ProviderCapabilities) : ComputeTarget where
  provider := provider.1
  reason := reason text requirements provider.2
  estimatedCost := costOf requirements provider.2

/-- The targets of exactly the suitable providers, of each once, in the order of the ranking. -/
def Ranks (text : RoutingText) (router : ComputeRouter) (requirements : ComputeRequirements)
    (targets : List ComputeTarget) : Prop :=
  ∃ ranked : List (String × ProviderCapabilities),
    targets = ranked.map (targetOf text requirements) ∧
    (ranked.map Prod.fst).Nodup ∧
    (∀ provider, provider ∈ ranked ↔ router.Suitable requirements provider) ∧
    ranked.Pairwise fun left right => rankKey requirements left < rankKey requirements right

theorem capable_iff {caps : ProviderCapabilities} :
    capable requirements caps = true ↔ Capable requirements caps := by
  unfold capable
  constructor
  · intro holds
    split_ifs at holds with noGpu noVram noRam noRuntime noModel
    refine ⟨by simpa using noGpu, not_lt.mp noVram, not_lt.mp noRam, by simpa using noRuntime,
      by simpa using noModel, fun network => ?_⟩
    simpa [network] using holds
  · intro holds
    rw [if_neg (by simpa using holds.gpu), if_neg (not_lt.mpr holds.vram),
      if_neg (not_lt.mpr holds.ram), if_neg (by simpa using holds.runtime),
      if_neg (by simpa using holds.model)]
    cases network : requirements.network with
    | false => rfl
    | true => simpa using holds.network network

theorem permitted_iff {name : String} {caps : ProviderCapabilities} :
    router.permitted requirements name caps = true ↔
      Permitted router.policy requirements name caps := by
  unfold permitted
  constructor
  · intro holds
    dsimp only at holds
    split_ifs at holds with blocked notAllowed hourly total
    refine ⟨by simpa using blocked, ?_, by simpa using hourly, by simpa using total⟩
    by_cases empty : router.policy.allowedProviders = []
    · exact .inl empty
    · exact .inr (by simpa [empty] using notAllowed)
  · intro holds
    dsimp only
    rw [if_neg (by simpa using holds.notBlocked), if_neg, if_neg (by simpa using holds.hourly),
      if_neg (by simpa using holds.total)]
    rcases holds.allowed with empty | allowed
    · simp [empty]
    · simp [allowed]

theorem available_iff {name : String} :
    router.available name = true ↔ router.availability name = .ok true := by
  unfold available
  split
  · next answer found => simp [found]
  · next failure found => simp [found]

/-- The filters of one turn together. -/
def accepts (router : ComputeRouter) (requirements : ComputeRequirements)
    (provider : String × ProviderCapabilities) : Bool :=
  (!router.localOnly requirements || provider.2.isLocal) && router.available provider.1 &&
    capable requirements provider.2 && router.permitted requirements provider.1 provider.2

theorem accepts_iff {provider : String × ProviderCapabilities} :
    provider ∈ router.providers.entries ∧ router.accepts requirements provider = true ↔
      router.Suitable requirements provider := by
  simp only [accepts, Bool.and_eq_true, Bool.or_eq_true, Bool.not_eq_true', available_iff,
    capable_iff, permitted_iff]
  have isLocal : (router.localOnly requirements = false ∨ provider.2.isLocal = true) ↔
      (requirements.privacy = "high" → router.policy.requireLocalForHighPrivacy = true →
        provider.2.isLocal = true) := by
    simp only [localOnly, ← Bool.not_eq_true, Bool.and_eq_true, beq_iff_eq]
    tauto
  rw [isLocal]
  constructor
  · rintro ⟨registered, ⟨⟨isLocal, available⟩, capable⟩, permitted⟩
    exact ⟨registered, available, capable, permitted, isLocal⟩
  · intro suitable
    exact ⟨suitable.registered, ⟨⟨suitable.isLocal, suitable.available⟩, suitable.capable⟩,
      suitable.permitted⟩

def candidateOf (text : RoutingText) (requirements : ComputeRequirements)
    (provider : String × ProviderCapabilities) : Candidate where
  cost := costOf requirements provider.2
  latency := latencyRank provider.2.latencyClass
  negatedReliability := -provider.2.reliability
  name := provider.1
  reason := reason text requirements provider.2

theorem candidate_eq (name : String) (caps : ProviderCapabilities) :
    router.candidate text requirements name caps =
      if router.accepts requirements (name, caps) then
        some (candidateOf text requirements (name, caps))
      else none := by
  unfold candidate accepts
  by_cases elsewhere : (router.localOnly requirements && !caps.isLocal) = true
  · rw [if_pos elsewhere, if_neg]
    simp_all
  rw [if_neg elsewhere]
  have isLocal : (!router.localOnly requirements || caps.isLocal) = true := by
    simpa [← Bool.not_eq_true, imp_iff_not_or] using elsewhere
  cases available : router.available name with
  | false => simp
  | true =>
      cases capable : capable requirements caps with
      | false => simp
      | true =>
          cases permitted : router.permitted requirements name caps with
          | false => simp
          | true => simp [isLocal, candidateOf]

/-- The candidates are those of the accepted providers. -/
theorem candidates_eq (entries : List (String × ProviderCapabilities)) :
    (entries.filterMap fun (name, caps) => router.candidate text requirements name caps) =
      (entries.filter (router.accepts requirements)).map (candidateOf text requirements) := by
  induction entries with
  | nil => rfl
  | cons provider rest induction =>
      rcases provider with ⟨name, caps⟩
      simp only [List.filterMap_cons, List.filter_cons, candidate_eq name caps]
      cases router.accepts requirements (name, caps) with
      | false => exact induction
      | true => exact congrArg (List.cons _) induction

/-- What is ranked where nothing is refused before. -/
theorem ranks_sorted : router.Ranks text requirements
    (((router.providers.entries.filterMap fun (name, caps) =>
      router.candidate text requirements name caps).insertionSort fun left right =>
        left.key ≤ right.key).map fun one =>
          { provider := one.name, reason := one.reason, estimatedCost := one.cost }) := by
  rw [candidates_eq]
  generalize isAccepted : router.providers.entries.filter (router.accepts requirements) = accepted
  have names : (accepted.map Prod.fst).Nodup := by
    rw [← isAccepted]
    exact router.providers.distinct.sublist (List.filter_sublist.map Prod.fst)
  have sorted := List.perm_insertionSort
    (fun left right => rankKey requirements left ≤ rankKey requirements right) accepted
  refine ⟨accepted.insertionSort fun left right =>
    rankKey requirements left ≤ rankKey requirements right, ?_, ?_, fun provider => ?_, ?_⟩
  · have same := List.map_insertionSort
      (r := fun left right => rankKey requirements left ≤ rankKey requirements right)
      (s := fun left right : Candidate => left.key ≤ right.key)
      (candidateOf text requirements) accepted fun _ _ _ _ => Iff.rfl
    rw [← same, List.map_map]
    rfl
  · exact (sorted.map Prod.fst).nodup_iff.mpr names
  · rw [List.mem_insertionSort, ← isAccepted, List.mem_filter, accepts_iff]
  · -- Two providers differ in their names, so that no two keys are equal.
    have apart := List.pairwise_map.mp ((sorted.map Prod.fst).nodup_iff.mpr names)
    have order := List.pairwise_insertionSort
      (fun left right => rankKey requirements left ≤ rankKey requirements right) accepted
    refine order.imp₂ (fun left right least differ => lt_of_le_of_ne least fun same => ?_) apart
    exact differ (congrArg (fun key => (ofLex (ofLex (ofLex key).2).2).2) same)

/-- What is refused before the ranking has no suitable provider. -/
theorem not_suitable_of_validate {error : RoutingError}
    (refused : router.validate requirements = .error error)
    (provider : String × ProviderCapabilities) : ¬ router.Suitable requirements provider := by
  intro suitable
  rcases accepts_iff.mpr suitable with ⟨registered, accepted⟩
  simp only [accepts, Bool.and_eq_true] at accepted
  have localOk : router.localOnly requirements = true → router.localOk requirements = true := by
    intro demanded
    refine List.any_eq_true.mpr ⟨provider, registered, ?_⟩
    simp_all
  have affordable : requirements.maxCost ≥ 0 → router.affordable requirements = true := by
    intro limited
    exact List.any_eq_true.mpr
      ⟨provider, registered, decide_eq_true (suitable.permitted.total limited)⟩
  have passed : router.validate requirements = .ok () := by
    unfold validate
    by_cases demanded : router.localOnly requirements = true <;>
      by_cases limited : requirements.maxCost ≥ 0 <;>
      simp [demanded, limited, localOk, affordable, pure, Except.pure]
  rw [passed] at refused
  cases refused

theorem rank_cases (text : RoutingText) (router : ComputeRouter)
    (requirements : ComputeRequirements) :
    (∃ error, router.validate requirements = .error error ∧
      router.rank text requirements = .error error) ∨
    ∃ targets, router.rank text requirements = .ok targets ∧
      router.Ranks text requirements targets := by
  cases valid : router.validate requirements with
  | error error => exact .inl ⟨error, rfl, by simp [rank, valid, bind, Except.bind]⟩
  | ok _ => exact .inr ⟨_, by simp [rank, valid, bind, Except.bind]; rfl, ranks_sorted⟩

/-- The ranking has the suitable providers in their order, the route is the first of them, and
an error is raised by the ranking only, and by the route exactly, where there is none. -/
theorem routing_correct (text : RoutingText) (router : ComputeRouter)
    (requirements : ComputeRequirements) :
    (∀ targets, router.rank text requirements = .ok targets →
      router.Ranks text requirements targets) ∧
    (∀ error, router.rank text requirements = .error error →
      ∀ provider, ¬ router.Suitable requirements provider) ∧
    (∀ target, router.route text requirements = .ok target →
      ∃ best, router.Suitable requirements best ∧ target = targetOf text requirements best ∧
        ∀ other, router.Suitable requirements other →
          rankKey requirements best ≤ rankKey requirements other) ∧
    ((∃ error, router.route text requirements = .error error) ↔
      ∀ provider, ¬ router.Suitable requirements provider) := by
  rcases rank_cases text router requirements with
    ⟨error, refused, ranked⟩ | ⟨targets, ranked, ranks⟩
  · have nobody := not_suitable_of_validate refused
    have routed : router.route text requirements = .error error := by
      simp [route, ranked, bind, Except.bind]
    rw [ranked, routed]
    exact ⟨fun _ impossible => (by cases impossible), fun _ _ => nobody,
      fun _ impossible => (by cases impossible), iff_of_true ⟨error, rfl⟩ nobody⟩
  · rcases ranks with ⟨providers, rfl, names, suitable, sorted⟩
    have routed : router.route text requirements =
        match providers.map (targetOf text requirements) with
        | [] => .error (.noRoute (router.whyEmpty text requirements))
        | best :: _ => .ok best := by
      simp only [route, ranked, bind, Except.bind]
      split <;> rfl
    rw [ranked, routed]
    refine ⟨fun _ same => ?_, fun _ impossible => (by cases impossible), ?_⟩
    · cases same
      exact ⟨providers, rfl, names, suitable, sorted⟩
    cases providers with
    | nil =>
        have nobody : ∀ provider, ¬ router.Suitable requirements provider := fun provider holds =>
          List.not_mem_nil ((suitable provider).mpr holds)
        exact ⟨fun _ impossible => (by cases impossible), iff_of_true ⟨_, rfl⟩ nobody⟩
    | cons best rest =>
        have isBest := (suitable best).mp List.mem_cons_self
        refine ⟨fun target same => ?_, iff_of_false ?_ fun nobody => nobody best isBest⟩
        · cases same
          refine ⟨best, isBest, rfl, fun other holds => ?_⟩
          rcases List.mem_cons.mp ((suitable other).mpr holds) with rfl | later
          · exact le_rfl
          · exact le_of_lt ((List.pairwise_cons.mp sorted).1 other later)
        · rintro ⟨error, impossible⟩
          cases impossible

/-- The fallback goes to the first target that probes healthy. -/
theorem selectFirstAvailable_eq_ok_iff {probe : String → Except String Bool}
    {ranked : List ComputeTarget} {last : String} {target : ComputeTarget} :
    selectFirstAvailable probe ranked last = .ok target ↔
      ∃ before behind, ranked = before ++ target :: behind ∧
        probe target.provider = .ok true ∧
          ∀ other ∈ before, probe other.provider ≠ .ok true := by
  induction ranked generalizing last with
  | nil => simp [selectFirstAvailable]
  | cons first rest induction =>
      have passed : ∀ {last}, probe first.provider ≠ .ok true →
          (selectFirstAvailable probe rest last = .ok target ↔
            ∃ before behind, first :: rest = before ++ target :: behind ∧
              probe target.provider = .ok true ∧
                ∀ other ∈ before, probe other.provider ≠ .ok true) := by
        intro last down
        rw [induction]
        constructor
        · rintro ⟨before, behind, rfl, healthy, others⟩
          exact ⟨first :: before, behind, rfl, healthy, List.forall_mem_cons.mpr ⟨down, others⟩⟩
        · rintro ⟨before, behind, same, healthy, others⟩
          cases before with
          | nil =>
              cases same
              exact absurd healthy down
          | cons _ before =>
              cases same
              exact ⟨before, behind, rfl, healthy, (List.forall_mem_cons.mp others).2⟩
      simp only [selectFirstAvailable]
      split
      · next healthy =>
          constructor
          · rintro ⟨⟩
            exact ⟨[], rest, rfl, healthy, fun _ member => absurd member List.not_mem_nil⟩
          · rintro ⟨before, behind, same, _, others⟩
            cases before with
            | nil =>
                cases same
                rfl
            | cons _ before =>
                cases same
                exact absurd healthy (others first List.mem_cons_self)
      · next unhealthy => exact passed (by simp [unhealthy])
      · next failure raised => exact passed (by simp [raised])

end ComputeRouter

end Raphael.Cloud
