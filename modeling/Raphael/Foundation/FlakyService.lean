import Mathlib.Algebra.GroupWithZero.Nat
import Mathlib.Algebra.Order.BigOperators.Group.List
import Mathlib.Algebra.Order.Group.Nat
import Mathlib.Data.Set.Insert

/-! # Services that fail for a while

A service fails a number of requests of each kind before it answers them. It may also
accept each key once only, whether the request under it is answered or not. -/

namespace Raphael.Foundation

/-- What is asked of a service. -/
structure ServiceRequest (Kind : Type u) (Key : Type v) where
  kind : Kind
  key : Key

/-- How often each kind was served, and the keys that are spent. -/
structure FlakyService (Kind : Type u) (Key : Type v) where
  served : Kind → Nat
  /-- Absent where keys play no part. -/
  spent : Option (Set Key)

namespace FlakyService

variable {Kind : Type u} {Key : Type v} {failures : Kind → Nat}
  {service : FlakyService Kind Key} {request : ServiceRequest Kind Key}
  {requests more : List (ServiceRequest Kind Key)} {key : Key} {kinds : List Kind}

/-- A request under this key is turned away. -/
def Refuses (service : FlakyService Kind Key) (key : Key) : Prop :=
  ∃ keys ∈ service.spent, key ∈ keys

/-- The request is let in, and its kind has failed often enough. -/
def Answers (failures : Kind → Nat) (service : FlakyService Kind Key)
    (request : ServiceRequest Kind Key) : Prop :=
  ¬service.Refuses request.key ∧ failures request.kind ≤ service.served request.kind

/-- Every request can be answered, one after the other. -/
structure Ready (failures : Kind → Nat) (service : FlakyService Kind Key)
    (requests : List (ServiceRequest Kind Key)) : Prop where
  served : ∀ request ∈ requests, failures request.kind ≤ service.served request.kind
  distinct : service.spent.isSome → (requests.map (·.key)).Nodup
  fresh : ∀ request ∈ requests, ¬service.Refuses request.key

theorem Ready.perm (ready : service.Ready failures requests) (same : requests.Perm more) :
    service.Ready failures more where
  served request member := ready.served request (same.mem_iff.mpr member)
  distinct keyed := (same.map _).nodup_iff.mp (ready.distinct keyed)
  fresh request member := ready.fresh request (same.mem_iff.mpr member)

theorem Ready.sublist (ready : service.Ready failures requests) (part : more.Sublist requests) :
    service.Ready failures more where
  served request member := ready.served request (part.subset member)
  distinct keyed := (ready.distinct keyed).sublist (part.map _)
  fresh request member := ready.fresh request (part.subset member)

/-- Failures that are still to come. -/
def left (failures : Kind → Nat) (service : FlakyService Kind Key) (kinds : List Kind) : Nat :=
  (kinds.map fun kind => failures kind - service.served kind).sum

theorem refuses_of_spent_eq_none (keyless : service.spent = none) (key : Key) :
    ¬service.Refuses key := by
  rintro ⟨keys, present, _⟩
  rw [keyless] at present
  cases present

variable [DecidableEq Kind]

open Classical in
/-- The service behind a request. -/
noncomputable def after (service : FlakyService Kind Key)
    (request : ServiceRequest Kind Key) : FlakyService Kind Key :=
  if service.Refuses request.key then service
  else {
    served :=
      Function.update service.served request.kind (service.served request.kind + 1)
    spent := service.spent.map (insert request.key) }

/-- The service behind a list of requests. -/
noncomputable def serve (service : FlakyService Kind Key)
    (requests : List (ServiceRequest Kind Key)) : FlakyService Kind Key :=
  requests.foldl after service

/-- Each request is answered in its turn. -/
def AllAnswered (failures : Kind → Nat) :
    FlakyService Kind Key → List (ServiceRequest Kind Key) → Prop
  | _, [] => True
  | service, request :: rest =>
      service.Answers failures request ∧ AllAnswered failures (service.after request) rest

/-! ## One request -/

theorem after_of_refuses (refuses : service.Refuses request.key) :
    service.after request = service := if_pos refuses

theorem after_of_not_refuses (accepts : ¬service.Refuses request.key) :
    service.after request = {
      served :=
        Function.update service.served request.kind (service.served request.kind + 1)
      spent := service.spent.map (insert request.key) } := if_neg accepts

theorem isSome_spent_after : (service.after request).spent.isSome = service.spent.isSome := by
  unfold after
  split
  · rfl
  · simp

theorem served_le_after (kind : Kind) :
    service.served kind ≤ (service.after request).served kind := by
  unfold after
  split
  · exact le_rfl
  · by_cases same : kind = request.kind
    · subst same
      simp
    · simp [Function.update_of_ne same]

/-- A key that is turned away stays so. -/
theorem Refuses.after (refuses : service.Refuses key) : (service.after request).Refuses key := by
  rcases refuses with ⟨keys, present, member⟩
  unfold FlakyService.after
  split
  · exact ⟨keys, present, member⟩
  · exact ⟨insert request.key keys, Option.mem_map_of_mem _ present, Set.mem_insert_of_mem _ member⟩

/-- Behind a request, its own key is turned away. -/
theorem refuses_after_self (keyed : service.spent.isSome) :
    (service.after request).Refuses request.key := by
  rcases Option.isSome_iff_exists.mp keyed with ⟨keys, present⟩
  by_cases refuses : service.Refuses request.key
  · exact refuses.after
  · rw [after_of_not_refuses refuses]
    exact ⟨insert request.key keys, Option.mem_map_of_mem _ present, Set.mem_insert _ _⟩

/-- Behind a request, only its own key is turned away beside those that were. -/
theorem refuses_of_after (refuses : (service.after request).Refuses key) :
    service.Refuses key ∨ (service.spent.isSome ∧ key = request.key) := by
  unfold FlakyService.after at refuses
  split at refuses
  · exact .inl refuses
  · rcases refuses with ⟨keys, present, member⟩
    rcases Option.map_eq_some_iff.mp present with ⟨before, held, rfl⟩
    rcases Set.mem_insert_iff.mp member with same | member
    · exact .inr ⟨Option.isSome_iff_exists.mpr ⟨before, held⟩, same⟩
    · exact .inl ⟨before, held, member⟩

theorem left_after_le (kinds : List Kind) :
    (service.after request).left failures kinds ≤ service.left failures kinds := by
  apply List.sum_le_sum
  intro kind _
  have grows := @served_le_after _ _ service request _ kind
  omega

/-- Without keys, a request that is not answered uses up a failure of its kind. -/
theorem left_after_lt (keyless : service.spent = none) (member : request.kind ∈ kinds)
    (unanswered : ¬service.Answers failures request) :
    (service.after request).left failures kinds < service.left failures kinds := by
  have accepts := refuses_of_spent_eq_none keyless request.key
  have failing : service.served request.kind < failures request.kind := by
    by_contra served
    exact unanswered ⟨accepts, Nat.le_of_not_lt served⟩
  apply List.sum_lt_sum
  · intro kind _
    have grows := @served_le_after _ _ service request _ kind
    omega
  · refine ⟨request.kind, member, ?_⟩
    rw [after_of_not_refuses accepts]
    simp only [Function.update_self]
    omega

/-! ## A list of requests -/

@[simp] theorem serve_cons :
    service.serve (request :: requests) = (service.after request).serve requests := rfl

theorem isSome_spent_serve : (service.serve requests).spent.isSome = service.spent.isSome := by
  induction requests generalizing service with
  | nil => rfl
  | cons request rest induction => rw [serve_cons, induction, isSome_spent_after]

theorem Refuses.serve (refuses : service.Refuses key) : (service.serve requests).Refuses key := by
  induction requests generalizing service with
  | nil => exact refuses
  | cons request rest induction => exact induction refuses.after

theorem left_serve_le (kinds : List Kind) :
    (service.serve requests).left failures kinds ≤ service.left failures kinds := by
  induction requests generalizing service with
  | nil => exact le_rfl
  | cons request rest induction => exact induction.trans (left_after_le kinds)

/-- The requests are all answered exactly where they are ready to be. -/
theorem allAnswered_iff_ready :
    service.AllAnswered failures requests ↔ service.Ready failures requests := by
  induction requests generalizing service with
  | nil => exact iff_of_true trivial ⟨nofun, fun _ => List.nodup_nil, nofun⟩
  | cons request rest induction =>
      rw [AllAnswered, induction]
      constructor
      · rintro ⟨⟨accepts, enough⟩, ready⟩
        have served : ∀ other ∈ rest, failures other.kind ≤ service.served other.kind := by
          intro other member
          have later := ready.served other member
          rw [after_of_not_refuses accepts] at later
          by_cases same : other.kind = request.kind
          · rw [same]
            exact enough
          · exact later.trans_eq (Function.update_of_ne same _ _)
        have different : service.spent.isSome → request.key ∉ rest.map (·.key) := by
          intro keyed repeated
          rcases List.mem_map.mp repeated with ⟨other, member, same⟩
          exact ready.fresh other member (same ▸ refuses_after_self keyed)
        refine ⟨List.forall_mem_cons.mpr ⟨enough, served⟩, fun keyed => ?_, ?_⟩
        · apply List.nodup_cons.mpr
          exact ⟨different keyed, ready.distinct (isSome_spent_after.trans keyed)⟩
        · intro other member refuses
          rcases List.mem_cons.mp member with rfl | member
          · exact accepts refuses
          · exact ready.fresh other member refuses.after
      · intro ready
        have accepts := ready.fresh request List.mem_cons_self
        refine ⟨⟨accepts, ready.served request List.mem_cons_self⟩, ?_, ?_, ?_⟩
        · intro other member
          exact (ready.served other (List.mem_cons_of_mem _ member)).trans
            (served_le_after other.kind)
        · intro keyed
          exact (List.nodup_cons.mp (ready.distinct (isSome_spent_after.symm.trans keyed))).2
        · intro other member refuses
          rcases refuses_of_after refuses with before | ⟨keyed, same⟩
          · exact ready.fresh other (List.mem_cons_of_mem _ member) before
          · apply (List.nodup_cons.mp (ready.distinct keyed)).1
            exact List.mem_map.mpr ⟨other, member, same⟩

/-- Without keys, requests that are not all answered use up a failure. -/
theorem left_serve_lt (keyless : service.spent = none)
    (members : ∀ request ∈ requests, request.kind ∈ kinds)
    (unanswered : ¬service.AllAnswered failures requests) :
    (service.serve requests).left failures kinds < service.left failures kinds := by
  induction requests generalizing service with
  | nil => exact absurd trivial unanswered
  | cons request rest induction =>
      rw [serve_cons]
      by_cases answers : service.Answers failures request
      · have keyless' : (service.after request).spent = none := by
          rw [← Option.not_isSome_iff_eq_none, isSome_spent_after, keyless]
          exact Bool.false_ne_true
        have unanswered' : ¬(service.after request).AllAnswered failures rest :=
          fun answered => unanswered ⟨answers, answered⟩
        have fewer := induction keyless'
          (fun other member => members other (List.mem_cons_of_mem _ member)) unanswered'
        exact fewer.trans_le (left_after_le kinds)
      · exact (left_serve_le kinds).trans_lt
          (left_after_lt keyless (members request List.mem_cons_self) answers)

/-- With keys, requests among which some were served are never ready again. -/
theorem not_ready_serve (keyed : service.spent.isSome) (some_ : more ≠ [])
    (inside : more ⊆ requests) : ¬(service.serve more).Ready failures requests := by
  intro ready
  cases more with
  | nil => exact some_ rfl
  | cons request rest =>
      apply ready.fresh request (inside List.mem_cons_self)
      exact (refuses_after_self keyed).serve

end FlakyService

end Raphael.Foundation
