import Mathlib.Data.List.Basic

/-! # Loops that may fail

A loop over a list whose body may raise is `List.foldlM` in `Except`. The rules give
its invariant, indexed by the items that are left, and take what has succeeded apart. -/

namespace Raphael.Foundation

variable {State : Type u} {Item : Type v} {Failure : Type w}

/-- A computation and what follows it have both succeeded. -/
theorem except_bind_eq_ok {Answer Result : Type u} {given : Except Failure Answer}
    {next : Answer → Except Failure Result} {result : Result} :
    given >>= next = .ok result ↔ ∃ answer, given = .ok answer ∧ next answer = .ok result := by
  cases given with
  | error failure =>
      constructor
      · intro done
        cases done
      · rintro ⟨_, same, _⟩
        cases same
  | ok answer =>
      constructor
      · exact fun done => ⟨answer, rfl, done⟩
      · rintro ⟨_, same, done⟩
        cases same
        exact done

/-- A body that succeeds and keeps the invariant makes the loop succeed and keep it. -/
theorem foldlM_ok (body : State → Item → Except Failure State) (items : List Item)
    (state : State) (Invariant : List Item → State → Prop)
    (step : ∀ item rest state, Invariant (item :: rest) state →
      ∃ next, body state item = .ok next ∧ Invariant rest next)
    (holds : Invariant items state) :
    ∃ final, items.foldlM body state = .ok final ∧ Invariant [] final := by
  induction items generalizing state with
  | nil => exact ⟨state, rfl, holds⟩
  | cons item rest induction =>
      rcases step item rest state holds with ⟨next, stepped, later⟩
      rcases induction next later with ⟨final, reached, last⟩
      refine ⟨final, ?_, last⟩
      rw [List.foldlM_cons, stepped]
      exact reached

/-- A loop that has succeeded keeps what its body keeps. -/
theorem foldlM_keeps {body : State → Item → Except Failure State} {items : List Item}
    {state final : State} (Invariant : State → Prop)
    (step : ∀ item ∈ items, ∀ state next, Invariant state → body state item = .ok next →
      Invariant next)
    (holds : Invariant state) (done : items.foldlM body state = .ok final) :
    Invariant final := by
  induction items generalizing state with
  | nil =>
      cases done
      exact holds
  | cons item rest induction =>
      rw [List.foldlM_cons] at done
      rcases except_bind_eq_ok.mp done with ⟨next, stepped, rest⟩
      apply induction (fun other member => step other (List.mem_cons_of_mem _ member)) _ rest
      exact step item List.mem_cons_self state next holds stepped

theorem forM_cons_eq (body : Item → Except Failure PUnit) (item : Item) (rest : List Item) :
    (item :: rest).forM body = (body item >>= fun _ => rest.forM body) :=
  rfl

/-- A loop without a result succeeds where its body does for every item. -/
theorem forM_eq_ok {body : Item → Except Failure PUnit} {items : List Item} :
    items.forM body = .ok ⟨⟩ ↔ ∀ item ∈ items, body item = .ok ⟨⟩ := by
  induction items with
  | nil => exact iff_of_true rfl fun item member => by cases member
  | cons item rest induction =>
      rw [forM_cons_eq, except_bind_eq_ok, List.forall_mem_cons, ← induction]
      constructor
      · rintro ⟨_, first, later⟩
        exact ⟨first, later⟩
      · rintro ⟨first, later⟩
        exact ⟨⟨⟩, first, later⟩

theorem forM_ok {body : Item → Except Failure PUnit} {items : List Item}
    (each : ∀ item ∈ items, body item = .ok ⟨⟩) : items.forM body = .ok ⟨⟩ :=
  forM_eq_ok.mpr each

/-- A loop fails as its body does for some item. -/
theorem exists_of_forM_error {body : Item → Except Failure PUnit} {items : List Item}
    {failure : Failure} (failed : items.forM body = .error failure) :
    ∃ item ∈ items, body item = .error failure := by
  induction items with
  | nil => cases failed
  | cons item rest induction =>
      rw [forM_cons_eq] at failed
      cases first : body item with
      | error other =>
          rw [first] at failed
          cases failed
          exact ⟨item, List.mem_cons_self, first⟩
      | ok done =>
          rw [first] at failed
          rcases induction failed with ⟨other, member, fails⟩
          exact ⟨other, List.mem_cons_of_mem item member, fails⟩

/-- A body that answers every item with its image answers the list with the images. -/
theorem mapM_ok {Answer : Type v} {body : Item → Except Failure Answer} {image : Item → Answer}
    {items : List Item} (each : ∀ item ∈ items, body item = .ok (image item)) :
    items.mapM body = .ok (items.map image) := by
  induction items with
  | nil => rfl
  | cons item rest induction =>
      have ⟨first, later⟩ := List.forall_mem_cons.mp each
      rw [List.mapM_cons, first, induction later]
      rfl

/-- What a label finds among the items is made into what it finds among the answers. -/
theorem find_of_mapM_ok {Answer : Type v} {body : Item → Except Failure Answer}
    {chosen : Item → Bool} {chosenAnswer : Answer → Bool}
    (labelled : ∀ item answer, body item = .ok answer → chosenAnswer answer = chosen item)
    {items : List Item} {answers : List Answer} (done : items.mapM body = .ok answers) :
    Option.Rel (fun item answer => body item = .ok answer) (items.find? chosen)
      (answers.find? chosenAnswer) := by
  induction items generalizing answers with
  | nil =>
      cases done
      exact .none
  | cons head rest induction =>
      rw [List.mapM_cons] at done
      rcases except_bind_eq_ok.mp done with ⟨first, made, later⟩
      rcases except_bind_eq_ok.mp later with ⟨others, restMade, same⟩
      cases same
      rw [List.find?_cons, List.find?_cons, labelled head first made]
      cases chosen head with
      | true => exact .some made
      | false => exact induction restMade

/-- A loop that ends at the first item of a kind treats all items that it is to treat exactly
where none of them comes behind one of that kind. -/
theorem filter_takeWhile_eq_iff {ends treats : Item → Bool}
    (apart : ∀ item, ends item = true → treats item = false) {items : List Item} :
    (items.takeWhile fun item => !ends item).filter treats = items.filter treats ↔
      items.Pairwise fun earlier later => ends earlier = true → treats later = false := by
  induction items with
  | nil => exact iff_of_true rfl List.Pairwise.nil
  | cons item rest induction =>
      rw [List.pairwise_cons]
      cases isEnd : ends item with
      | true =>
          rw [List.takeWhile_cons_of_neg (by rw [isEnd]; nofun), List.filter_nil,
            List.filter_cons_of_neg (by rw [apart item isEnd]; nofun), eq_comm,
            List.filter_eq_nil_iff]
          constructor
          · intro untreated
            have none : ∀ later ∈ rest, treats later = false :=
              fun later member => Bool.eq_false_iff.mpr (untreated later member)
            exact ⟨fun later member _ => none later member,
              List.pairwise_of_forall_mem_list fun _ _ later member _ => none later member⟩
          · rintro ⟨untreated, _⟩ later member
            rw [untreated later member rfl]
            exact Bool.false_ne_true
      | false =>
          rw [List.takeWhile_cons_of_pos (by rw [isEnd]; rfl)]
          have nothing : ∀ later ∈ rest, false = true → treats later = false := nofun
          rw [and_iff_right nothing, ← induction]
          cases isTreated : treats item with
          | true =>
              rw [List.filter_cons_of_pos isTreated, List.filter_cons_of_pos isTreated,
                List.cons_inj_right]
          | false =>
              rw [List.filter_cons_of_neg (Bool.eq_false_iff.mp isTreated),
                List.filter_cons_of_neg (Bool.eq_false_iff.mp isTreated)]

/-! ## Failing over -/

section FailOver

variable {Source : Type u} {Answer : Type v} (ask : List Source → Source → Except Failure Answer)
  (passedOver : Failure → Bool)

/-- The sources are asked in turn, until one answers or fails in a way that is not passed over.
What one says may depend on those before it. The failure that is held is the last one. -/
def failOver (asked : List Source) (held : Failure) :
    List Source → List Source × Except Failure Answer
  | [] => (asked, .error held)
  | source :: rest =>
      match ask asked source with
      | .ok answer => (asked ++ [source], .ok answer)
      | .error failure =>
          if passedOver failure then failOver (asked ++ [source]) failure rest
          else (asked ++ [source], .error failure)

/-- It ends at the first source that is not passed over, or at the last one. -/
theorem failOver_cons (asked : List Source) (held : Failure) (first : Source)
    (rest : List Source) :
    ∃ front source behind, first :: rest = front ++ source :: behind ∧
      failOver ask passedOver asked held (first :: rest) =
        (asked ++ front ++ [source], ask (asked ++ front) source) ∧
      (∀ before other, before ++ [other] <+: front →
        ∃ failure, ask (asked ++ before) other = .error failure ∧ passedOver failure = true) ∧
      (behind = [] ∨ ∀ failure, ask (asked ++ front) source = .error failure →
        passedOver failure = false) := by
  have nothing : ∀ before (other : Source), before ++ [other] <+: [] →
      ∃ failure, ask (asked ++ before) other = .error failure ∧ passedOver failure = true := by
    simp
  unfold failOver
  cases said : ask asked first with
  | ok answer => exact ⟨[], first, rest, rfl, by simp [said], nothing, .inr (by simp [said])⟩
  | error failure =>
      cases passed : passedOver failure with
      | false =>
          exact ⟨[], first, rest, rfl, by simp [said, passed], nothing,
            .inr (by simp [said, passed])⟩
      | true =>
          cases rest with
          | nil => exact ⟨[], first, [], rfl, by simp [said, passed, failOver], nothing, .inl rfl⟩
          | cons second rest =>
              rcases failOver_cons (asked ++ [first]) failure second rest with
                ⟨front, source, behind, same, ends, skipped, last⟩
              simp only [List.append_assoc, List.cons_append, List.nil_append] at ends skipped last
              refine ⟨first :: front, source, behind, congrArg _ same, ?_, ?_, last⟩
              · simpa [passed] using ends
              · rintro (_ | ⟨head, before⟩) other isPrefix
                · rcases List.cons_prefix_cons.mp isPrefix with ⟨rfl, _⟩
                  exact ⟨failure, by simpa using said, passed⟩
                · rcases List.cons_prefix_cons.mp isPrefix with ⟨rfl, later⟩
                  exact skipped before other later

end FailOver

end Raphael.Foundation
