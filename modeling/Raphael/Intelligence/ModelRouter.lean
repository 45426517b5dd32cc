import Mathlib.Algebra.Order.Ring.Rat
import Mathlib.Data.Prod.Lex
import Mathlib.Data.String.Basic
import Raphael.Foundation.Dict
import Raphael.Foundation.FallibleFold
import Raphael.Security.DataPolicy

/-! # Model routing

Which providers a request may go to, in which order they are asked, and when their failure is
the answer. Costs are rationals. -/

namespace Raphael.Intelligence

open Core Foundation Security

structure ModelCapabilities where
  contextLength : Int := 0
  /-- The truth of the attribute of a name, `False` without one. -/
  flag : String → Bool

structure ModelProvider where
  providerId : String
  capabilities : ModelCapabilities

structure ProviderProfile where
  providerId : String := ""
  isLocal : Bool := false
  trusted : Bool := false
  costPer1k : ℚ := 0
  latencyClass : String := "standard"
  dataClasses : List DataClass := []
  trainsOnData : Bool := true

structure RoutingRequirements where
  privacy : String := "any"
  dataClassification : DataClass := .internal
  minContext : Int := 0
  needCapabilities : List String := []
  requireStreaming : Bool := false

structure ModelRouter where
  providers : Dict String ModelProvider := Dict.empty
  profiles : Dict String ProviderProfile := Dict.empty

namespace ModelRouter

/-- The profile gets the id of the provider. -/
def register (router : ModelRouter) (provider : ModelProvider) (profile : ProviderProfile) :
    ModelRouter where
  providers := router.providers.set provider.providerId provider
  profiles := router.profiles.set provider.providerId
    { profile with providerId := provider.providerId }

def privacyAllowed (profile : ProviderProfile) (requirements : RoutingRequirements) : Bool :=
  let cls := requirements.dataClassification
  let listed := profile.dataClasses.contains cls
  if cls = .secret then profile.isLocal && !profile.trainsOnData
  else if requirements.privacy = "local-only" then profile.isLocal
  else if cls = .sensitive then
    profile.isLocal || profile.trusted && listed && !profile.trainsOnData
  else if cls = .personal then profile.isLocal || profile.trusted && listed
  else !(!listed && !profile.isLocal)

/-- What the loop over the providers asks of one. -/
def admits (requirements : RoutingRequirements) (profile : ProviderProfile)
    (provider : ModelProvider) : Bool :=
  let caps := provider.capabilities
  privacyAllowed profile requirements && !(caps.contextLength < requirements.minContext) &&
    !(requirements.requireStreaming && !caps.flag "streaming") &&
    !requirements.needCapabilities.any fun name => !caps.flag name

def latencyRank (latencyClass : String) : Nat :=
  if latencyClass = "fast" then 0 else if latencyClass = "slow" then 2 else 1

variable (router : ModelRouter) (requirements : RoutingRequirements)

def profile (pid : String) : ProviderProfile :=
  (router.profiles.get pid).getD { providerId := pid }

def rank (pid : String) : ℚ ×ₗ Nat ×ₗ String :=
  toLex ((router.profile pid).costPer1k,
    toLex (latencyRank (router.profile pid).latencyClass, pid))

def ranked : List (String × ModelProvider) :=
  (router.providers.entries.filter fun (pid, provider) =>
    admits requirements (router.profile pid) provider).insertionSort fun left right =>
      router.rank left.1 ≤ router.rank right.1

def candidates : List ModelProvider := (router.ranked requirements).map Prod.snd

/-- `NoSuitableModelError`, a model error as well, of the dumped requirements. -/
def unsuitable (dump : RoutingRequirements → String) : Error :=
  .model ("no provider satisfies " ++ dump requirements)

def isModelError : Error → Bool
  | .model _ => true
  | _ => false

/-- `complete` and `request_structured`, which differ in what is asked of a provider. Returned
are the providers that were asked as well. -/
def complete (dump : RoutingRequirements → String)
    (ask : List ModelProvider → ModelProvider → Except Error Answer) :
    List ModelProvider × Except Error Answer :=
  match router.candidates requirements with
  | [] => ([], .error (unsuitable requirements dump))
  | options => failOver ask isModelError [] (unsuitable requirements dump) options

/-! ## What is registered -/

inductive Registration
  | register (provider : ModelProvider) (profile : ProviderProfile)
  | clear

def apply (router : ModelRouter) : Registration → ModelRouter
  | .register provider profile => router.register provider profile
  | .clear => {}

/-- What was registered last under each id, and was not cleared since. -/
abbrev Registered := String → Option (ModelProvider × ProviderProfile)

def note (held : Registered) : Registration → Registered
  | .register provider profile =>
      Function.update held provider.providerId (some (provider, profile))
  | .clear => fun _ => none

def registered (calls : List Registration) : Registered := calls.foldl note fun _ => none

/-- The two dictionaries have the same keys, so that no provider is without its profile. -/
structure Holds (router : ModelRouter) (held : Registered) : Prop where
  providers : ∀ pid, router.providers.get pid = (held pid).map Prod.fst
  profiles : ∀ pid, router.profiles.get pid =
    (held pid).map fun entry => { entry.2 with providerId := pid }
  own : ∀ pid entry, held pid = some entry → entry.1.providerId = pid

theorem holds_registered (calls : List Registration) :
    Holds (calls.foldl apply {}) (registered calls) := by
  suffices kept : ∀ router held, Holds router held →
      Holds (calls.foldl apply router) (calls.foldl note held) from
    kept {} _ ⟨fun _ => rfl, fun _ => rfl, nofun⟩
  induction calls with
  | nil => exact fun _ _ holds => holds
  | cons call rest induction =>
      intro router held holds
      apply induction
      cases call with
      | clear => exact ⟨fun _ => rfl, fun _ => rfl, nofun⟩
      | register provider profile =>
          refine ⟨fun pid => ?_, fun pid => ?_, fun pid entry => ?_⟩ <;>
            by_cases same : pid = provider.providerId
          · simp [apply, register, note, Dict.get_set, same]
          · simp [apply, register, note, Dict.get_set, same, holds.providers]
          · simp [apply, register, note, Dict.get_set, same]
          · simp [apply, register, note, Dict.get_set, same, holds.profiles]
          · subst same
            intro found
            simp only [note, Function.update_self, Option.some.injEq] at found
            rw [← found]
          · simpa [note, same] using holds.own pid entry

variable {router : ModelRouter} {requirements : RoutingRequirements}
  {held : Registered}

theorem mem_ranked (holds : Holds router held) {pid : String} {provider : ModelProvider} :
    (pid, provider) ∈ router.ranked requirements ↔ ∃ profile,
      held pid = some (provider, profile) ∧ admits requirements profile provider = true := by
  rw [ranked, (List.perm_insertionSort _ _).mem_iff, List.mem_filter, ← Dict.get_eq_some_iff,
    holds.providers]
  simp only [ModelRouter.profile, holds.profiles]
  cases held pid with
  | none => simp
  | some entry =>
      rcases entry with ⟨provider', profile⟩
      constructor
      · rintro ⟨same, admitted⟩
        cases same
        exact ⟨profile, rfl, admitted⟩
      · rintro ⟨_, same, admitted⟩
        cases same
        exact ⟨rfl, admitted⟩

theorem mem_candidates (holds : Holds router held) {provider : ModelProvider} :
    provider ∈ router.candidates requirements ↔ ∃ profile,
      held provider.providerId = some (provider, profile) ∧
        admits requirements profile provider = true := by
  rw [candidates, List.mem_map]
  constructor
  · rintro ⟨⟨pid, _⟩, member, rfl⟩
    rcases (mem_ranked holds).mp member with ⟨profile, found, admitted⟩
    cases holds.own pid _ found
    exact ⟨profile, found, admitted⟩
  · exact fun admitted => ⟨(_, provider), (mem_ranked holds).mpr admitted, rfl⟩

theorem candidates_ordered (holds : Holds router held) :
    (router.candidates requirements).Pairwise fun left right =>
      router.rank left.providerId < router.rank right.providerId := by
  have own : ∀ entry ∈ router.ranked requirements, entry.2.providerId = entry.1 := by
    rintro ⟨pid, provider⟩ member
    rcases (mem_ranked holds).mp member with ⟨profile, found, _⟩
    exact holds.own pid _ found
  have apart : (router.ranked requirements).Pairwise (·.1 ≠ ·.1) :=
    (List.perm_insertionSort _ _).symm.pairwise
      (List.pairwise_map.mp router.providers.distinct |>.filter _) (fun differ => differ.symm)
  refine List.pairwise_map.mpr (((List.pairwise_insertionSort ..).and apart).imp_of_mem ?_)
  rintro left right isLeft isRight ⟨below, differ⟩
  rw [own left isLeft, own right isRight]
  exact lt_of_le_of_ne below fun same => differ (by simp_all [rank])

/-- What is secret or may not leave stays with local providers. -/
theorem isLocal_of_admits {profile : ProviderProfile} {provider : ModelProvider}
    (admitted : admits requirements profile provider = true)
    (kept : requirements.dataClassification = .secret ∨ requirements.privacy = "local-only") :
    profile.isLocal = true := by
  simp only [admits, Bool.and_eq_true] at admitted
  have allowed := admitted.1.1.1
  unfold privacyAllowed at allowed
  dsimp only at allowed
  split_ifs at allowed <;> simp_all

/-- Whatever was registered and cleared, and however the providers answer: those that are asked
are admitted and in the order of the ranking; each but the last has failed with a model error,
and that is the outcome only when every admitted provider was asked. -/
theorem complete_after_registrations (calls : List Registration)
    (requirements : RoutingRequirements) (dump : RoutingRequirements → String)
    (ask : List ModelProvider → ModelProvider → Except Error Answer) :
    let router := calls.foldl apply {}
    let Admitted (provider : ModelProvider) := ∃ profile,
      registered calls provider.providerId = some (provider, profile) ∧
        admits requirements profile provider = true
    let (asked, outcome) := router.complete requirements dump ask
    (asked.Pairwise fun left right =>
      router.rank left.providerId < router.rank right.providerId) ∧
    (∀ provider ∈ asked, ∃ profile,
      registered calls provider.providerId = some (provider, profile) ∧
        admits requirements profile provider = true ∧
          (requirements.dataClassification = .secret ∨ requirements.privacy = "local-only" →
            profile.isLocal = true)) ∧
    (asked = [] → outcome = .error (unsuitable requirements dump)) ∧
    (∀ before provider, before ++ [provider] <+: asked →
      asked = before ++ [provider] ∧ outcome = ask before provider ∨
        ∃ error, ask before provider = .error error ∧ isModelError error = true) ∧
    ∀ error, outcome = .error error → isModelError error = true →
      ∀ provider, Admitted provider → provider ∈ asked := by
  intro router Admitted
  have holds := holds_registered calls
  have ordered := @candidates_ordered _ requirements _ holds
  have member {provider} : provider ∈ router.candidates requirements ↔ Admitted provider :=
    mem_candidates holds
  unfold complete
  cases found : router.candidates requirements with
  | nil => simp [← member, found]
  | cons first rest =>
      rcases failOver_cons ask isModelError [] (unsuitable requirements dump) first rest with
        ⟨front, last, behind, same, ends, skips, all⟩
      simp only [List.nil_append] at ends skips all
      have whole : router.candidates requirements = front ++ [last] ++ behind := by
        simpa [found] using same
      dsimp only
      rw [ends]
      refine ⟨(List.pairwise_append.mp (whole ▸ ordered)).1, fun provider isAsked => ?_,
        by simp, fun before provider isPrefix => ?_, fun error fails isModel provider => ?_⟩
      · rcases member.mp (whole ▸ List.mem_append_left _ isAsked) with ⟨profile, known, admitted⟩
        exact ⟨profile, known, admitted, isLocal_of_admits admitted⟩
      · rcases List.prefix_concat_iff.mp isPrefix with whole | isPrefix
        · rcases List.append_inj' whole rfl with ⟨rfl, isLast⟩
          cases isLast
          exact .inl ⟨rfl, rfl⟩
        · exact .inr (skips before provider isPrefix)
      · rcases all with rfl | other
        · rw [← member, whole, List.append_nil]
          exact id
        · exact absurd ((other error fails).symm.trans isModel) nofun

end ModelRouter

end Raphael.Intelligence
