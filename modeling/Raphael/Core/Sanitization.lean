import Raphael.Core.Sanitizer

/-! # What sanitizing a value leaves of it

No secret is left where the value has text as its keys, no tuple or set in a set, and no
secret in an object that the sanitizer does not enter. -/

namespace Raphael.Core.PyObject

/-- A key that smells like a credential. -/
def secretNamed : PyKey → Bool
  | .str text => Secrets.looksSecret text
  | .other _ _ => false

def isMask : PyObject → Bool
  | .str text => text == "***"
  | _ => false

/-! No text in the value is in a known credential format, and behind every key or field
that smells like a credential there is a mask. -/

mutual
def clean : PyObject → Bool
  | .str text => !Secrets.looksLikeSecretValue text
  | .scalar _ => true
  | .dict entries => cleanEntries entries
  | .list items => cleanItems items
  | .tuple items => cleanItems items
  | .set items => cleanItems items
  | .frozenset items => cleanItems items
  | .model fields _ => cleanFields fields
  | .dataclass fields _ => cleanFields fields
  | .exception _ text => !(text.any Secrets.looksLikeSecretValue)

def cleanItems : List PyObject → Bool
  | [] => true
  | item :: rest => clean item && cleanItems rest

def cleanEntries : List (PyKey × PyObject) → Bool
  | [] => true
  | (key, value) :: rest =>
      (if secretNamed key then isMask value else clean value) && cleanEntries rest

def cleanFields : List (String × PyObject) → Bool
  | [] => true
  | (name, value) :: rest =>
      (if Secrets.looksSecret name then isMask value else clean value) && cleanFields rest
end

/-! Apart from what is masked the leaves stay, each where it was. -/

mutual
inductive Keeps : PyObject → PyObject → Prop
  | same (value : PyObject) : Keeps value value
  | masked {text : String} (shaped : Secrets.looksLikeSecretValue text = true) :
      Keeps (.str text) (.str "***")
  | dict {entries kept : List (PyKey × PyObject)} (each : KeepsEntries entries kept) :
      Keeps (.dict entries) (.dict kept)
  | list {items kept : List PyObject} (each : KeepsItems items kept) :
      Keeps (.list items) (.list kept)
  | tuple {items kept : List PyObject} (each : KeepsItems items kept) :
      Keeps (.tuple items) (.list kept)
  | set {items kept members : List PyObject} (each : KeepsItems items kept)
      (same : ∀ item, item ∈ members ↔ item ∈ kept) : Keeps (.set items) (.set members)
  | frozenset {items kept members : List PyObject} (each : KeepsItems items kept)
      (same : ∀ item, item ∈ members ↔ item ∈ kept) : Keeps (.frozenset items) (.set members)
  | model {fields : List (String × PyObject)} {dump : Json} {result : PyObject}
      (inside : Keeps (ofJson dump) result) : Keeps (.model fields (some dump)) result
  | dataclass {fields : List (String × PyObject)} {result : PyObject}
      (inside : Keeps (.dict (asDictFields fields)) result) :
      Keeps (.dataclass fields true) result
  | exception {typeName text : String} :
      Keeps (.exception typeName (some text)) (.str (typeName ++ ": " ++ text))
  | maskedException {typeName text : String}
      (shaped : Secrets.looksLikeSecretValue (typeName ++ ": " ++ text) = true) :
      Keeps (.exception typeName (some text)) (.str (typeName ++ ": ***"))

inductive KeepsItems : List PyObject → List PyObject → Prop
  | nil : KeepsItems [] []
  | cons {item kept : PyObject} {rest others : List PyObject} (head : Keeps item kept)
      (tail : KeepsItems rest others) : KeepsItems (item :: rest) (kept :: others)

inductive KeepsEntries : List (PyKey × PyObject) → List (PyKey × PyObject) → Prop
  | nil : KeepsEntries [] []
  | cons {key : PyKey} {value kept : PyObject} {rest others : List (PyKey × PyObject)}
      (head : Keeps value kept) (tail : KeepsEntries rest others) :
      KeepsEntries ((key, value) :: rest) ((key, kept) :: others)
  | named {key : PyKey} {value : PyObject} {rest others : List (PyKey × PyObject)}
      (secret : secretNamed key = true) (tail : KeepsEntries rest others) :
      KeepsEntries ((key, value) :: rest) ((key, .str "***") :: others)
end

/-- Sanitizing returns, hides every secret, keeps everything else, and has nothing to do a
second time. -/
def SanitizesTo (value result : PyObject) : Prop :=
  sanitize value = .ok result ∧ clean result = true ∧ Keeps value result ∧
    sanitize result = .ok result

/-- The same of `redact`. -/
def RedactsTo (entries results : List (PyKey × PyObject)) : Prop :=
  redact entries = .ok results ∧ cleanEntries results = true ∧ KeepsEntries entries results ∧
    redact results = .ok results

/-! The recursion goes through: every key that it comes to is text, and no set holds what
it rebuilds. -/

def rebuilt : PyObject → Bool
  | .dict _ | .list _ | .tuple _ | .set _ | .frozenset _ => true
  | _ => false

/-- A value that only `sanitize` itself enters. -/
def isObject : PyObject → Bool
  | .model _ _ | .dataclass _ _ | .exception _ _ => true
  | _ => false

mutual
def passes : PyObject → Bool
  | .dict entries => passesEntries entries
  | .list items => passesItems items
  | .tuple items => passesItems items
  | .set items => items.all fun item => !rebuilt item
  | .frozenset items => items.all fun item => !rebuilt item
  | .str _ | .scalar _ | .model _ _ | .dataclass _ _ | .exception _ _ => true

def passesItems : List PyObject → Bool
  | [] => true
  | item :: rest => passes item && passesItems rest

def passesEntries : List (PyKey × PyObject) → Bool
  | [] => true
  | (.str text, value) :: rest =>
      (Secrets.looksSecret text || passes value) && passesEntries rest
  | (.other _ _, _) :: _ => false
end

/-! No object inside the value, which is left as it is, holds a secret. -/

mutual
def hides : PyObject → Bool
  | .str _ => true
  | .scalar _ => true
  | .dict entries => hidesEntries entries
  | .list items => hidesItems items
  | .tuple items => hidesItems items
  | .set items => hidesItems items
  | .frozenset items => hidesItems items
  | .model fields _ => cleanFields fields
  | .dataclass fields _ => cleanFields fields
  | .exception _ text => !(text.any Secrets.looksLikeSecretValue)

def hidesItems : List PyObject → Bool
  | [] => true
  | item :: rest => hides item && hidesItems rest

def hidesEntries : List (PyKey × PyObject) → Bool
  | [] => true
  | (key, value) :: rest => (secretNamed key || hides value) && hidesEntries rest
end

/-- The values that the sanitizer takes care of. -/
def sanitizable : PyObject → Bool
  | .exception _ none => false
  | .exception typeName (some text) =>
      !Secrets.looksLikeSecretValue (typeName ++ ": " ++ text) ||
        !Secrets.looksLikeSecretValue (typeName ++ ": ***")
  | .model _ (some _) => true
  | .model fields none => cleanFields fields
  | .dataclass fields copies =>
      if copies && passesEntries (asDictFields fields) then hidesEntries (asDictFields fields)
      else cleanFields fields
  | value => passes value && hides value

/-! ## Computations that may raise -/

/-- The computation goes through as foretold, and its result is as wanted. -/
def Outcome {Result : Type} (foretold : Bool) (given : Except Error Result)
    (Wanted : Result → Prop) : Prop :=
  match given with
  | .ok result => foretold = true ∧ Wanted result
  | .error _ => foretold = false

namespace Outcome

variable {First Second : Type} {foretold later : Bool} {given : Except Error First}
  {Wanted : First → Prop} {Final : Second → Prop}

theorem ok {result : First} (wanted : Wanted result) :
    Outcome true (.ok result) Wanted := ⟨rfl, wanted⟩

theorem bind {next : First → Except Error Second} (outcome : Outcome foretold given Wanted)
    (follows : ∀ result, Wanted result → Outcome later (next result) Final) :
    Outcome (foretold && later) (given >>= next) Final := by
  cases given with
  | error error =>
      rw [show foretold = false from outcome, Bool.false_and]
      rfl
  | ok result =>
      rw [outcome.1, Bool.true_and]
      exact follows result outcome.2

theorem map {change : First → Second} (outcome : Outcome foretold given Wanted)
    (follows : ∀ result, Wanted result → Final (change result)) :
    Outcome foretold (given >>= fun result => pure (change result)) Final := by
  cases given with
  | error error => exact outcome
  | ok result => exact ⟨outcome.1, follows result outcome.2⟩

theorem exists_ok (outcome : Outcome foretold given Wanted) (holds : foretold = true) :
    ∃ result, given = .ok result ∧ Wanted result := by
  cases given with
  | error error => exact absurd (show foretold = false from outcome) (by rw [holds]; decide)
  | ok result => exact ⟨result, rfl, outcome.2⟩

theorem exists_error (outcome : Outcome foretold given Wanted) (fails : foretold = false) :
    ∃ error, given = .error error := by
  cases given with
  | error error => exact ⟨error, rfl⟩
  | ok result => exact absurd outcome.1 (by rw [fails]; decide)

end Outcome

/-! ## Members of a set -/

theorem mem_adjoin (item other : PyObject) (others : List PyObject) :
    other ∈ adjoin item others ↔ other = item ∨ other ∈ others := by
  cases item with
  | str text =>
      simp only [adjoin]
      split
      · rename_i found
        rcases List.any_eq_true.mp found with ⟨known, member, same⟩
        cases known with
        | str same_ =>
            obtain rfl : same_ = text := by simpa [isText] using same
            constructor
            · exact .inr
            · rintro (rfl | inside)
              · exact member
              · exact inside
        | _ => cases same
      · exact List.mem_cons
  | _ => exact List.mem_cons

theorem cleanItems_eq_all (items : List PyObject) : cleanItems items = items.all clean := by
  induction items with
  | nil => rfl
  | cons item rest induction => rw [cleanItems, List.all_cons, induction]

theorem collect_cons (item : PyObject) (rest : List PyObject) :
    collect (item :: rest) = match item.unhashable with
      | some kind => .error (.other ("unhashable type: '" ++ kind ++ "'"))
      | none => collect rest >>= fun others => pure (adjoin item others) := by
  rw [collect]
  cases item.unhashable <;> rfl

/-- A set has the same members as the list it is made of, and is made of itself. -/
theorem collect_spec (items : List PyObject) :
    Outcome (items.all fun item => item.unhashable.isNone) (collect items) fun members =>
      (∀ item, item ∈ members ↔ item ∈ items) ∧ collect members = .ok members := by
  induction items with
  | nil => exact .ok ⟨fun _ => .rfl, rfl⟩
  | cons item rest induction =>
      rw [collect_cons, List.all_cons]
      cases kind : item.unhashable with
      | some _ => exact rfl
      | none =>
          rw [show (none : Option String).isNone = true from rfl, Bool.true_and]
          refine induction.map fun others kept => ⟨fun other => ?_, ?_⟩
          · rw [mem_adjoin, kept.1, List.mem_cons]
          · -- What is adjoined already stays out a second time.
            have again : collect (item :: others) = .ok (adjoin item others) := by
              rw [collect_cons, kind, kept.2]
              rfl
            cases item with
            | str text =>
                simp only [adjoin] at again ⊢
                split
                · exact kept.2
                · rename_i missing
                  rwa [if_neg missing] at again
            | _ => exact again

/-! ## The recursion -/

theorem unmasked_mask : Secrets.looksLikeSecretValue "***" = false := by decide

theorem sanitizeItems_cons (item : PyObject) (rest : List PyObject) :
    sanitizeItems (item :: rest) = sanitizeItem item >>= fun sanitized =>
      sanitizeItems rest >>= fun others => pure (sanitized :: others) := by
  rw [sanitizeItems, sanitizeItem]
  cases item.looksLikeSecret <;> rfl

theorem redact_cons (text : String) (value : PyObject) (rest : List (PyKey × PyObject)) :
    redact ((.str text, value) :: rest) =
      (if Secrets.looksSecret text then .ok (.str "***") else sanitizeItem value) >>=
        fun redacted => redact rest >>= fun others =>
          pure ((.str text, redacted) :: others) := by
  have named : (PyKey.str text).looksSecret = .ok (Secrets.looksSecret text) := rfl
  rw [redact, named, sanitizeItem]
  cases Secrets.looksSecret text <;> cases value.looksLikeSecret <;> rfl

theorem redact_other (typeName repr : String) (value : PyObject)
    (rest : List (PyKey × PyObject)) :
    ∃ error, redact ((.other typeName repr, value) :: rest) = .error error := by
  have raises : ∃ error, (PyKey.other typeName repr).looksSecret = .error error := by
    unfold PyKey.looksSecret
    split
    · cases ‹PyKey.other typeName repr = .str _›
    · exact ⟨_, rfl⟩
    · exact ⟨_, rfl⟩
  rcases raises with ⟨error, raises⟩
  refine ⟨error, ?_⟩
  rw [redact, raises]
  rfl

theorem sanitizeItem_dict (entries : List (PyKey × PyObject)) :
    sanitizeItem (.dict entries) =
      redact entries >>= fun results => pure (.dict results) := rfl

theorem sanitizeItem_list (items : List PyObject) :
    sanitizeItem (.list items) =
      sanitizeItems items >>= fun results => pure (.list results) := rfl

theorem sanitizeItem_set (items : List PyObject) :
    sanitizeItem (.set items) =
      (sanitizeItems items >>= collect) >>= fun members => pure (.set members) := by
  rw [bind_assoc]
  rfl

/-- What the sanitizer makes of a value inside of another. -/
structure Settled (value result : PyObject) : Prop where
  clean : clean result = hides value
  keeps : Keeps value result
  again : sanitizeItem result = .ok result
  hashable : result.unhashable.isNone = !rebuilt value
  plain : isObject result = isObject value

/-- Items that are settled already stay as they are. -/
theorem sanitizeItems_of_settled {items : List PyObject}
    (settled : ∀ item ∈ items, sanitizeItem item = .ok item) :
    sanitizeItems items = .ok items := by
  induction items with
  | nil => rfl
  | cons item rest induction =>
      rw [sanitizeItems_cons, settled item List.mem_cons_self,
        induction fun other member => settled other (List.mem_cons_of_mem item member)]
      rfl

theorem settled_text (text : String) :
    Outcome true (sanitizeItem (.str text)) (Settled (.str text)) := by
  by_cases shaped : Secrets.looksLikeSecretValue text = true
  · rw [sanitizeItem, looksLikeSecret, if_pos shaped]
    exact .ok ⟨by rw [clean, unmasked_mask]; rfl, .masked shaped,
      if_neg (by rw [looksLikeSecret, unmasked_mask]; decide), rfl, rfl⟩
  · rw [sanitizeItem, looksLikeSecret, if_neg shaped]
    exact .ok ⟨by rw [clean, Bool.eq_false_of_not_eq_true shaped]; rfl, .same _,
      if_neg shaped, rfl, rfl⟩

/-- What the sanitizer makes of the members of a set. -/
theorem settled_members {items : List PyObject} {Wanted : List PyObject → Prop}
    (inside : Outcome (passesItems items) (sanitizeItems items) fun results =>
      cleanItems results = hidesItems items ∧ KeepsItems items results ∧
        (∀ result ∈ results, sanitizeItem result = .ok result) ∧
        (results.all fun result => result.unhashable.isNone) =
          items.all fun item => !rebuilt item)
    (passing : (items.all fun item => !rebuilt item) = true → passesItems items = true)
    (wanted : ∀ results members, KeepsItems items results →
      (∀ item, item ∈ members ↔ item ∈ results) → cleanItems members = hidesItems items →
      sanitizeItems members = .ok members → collect members = .ok members → Wanted members) :
    Outcome (items.all fun item => !rebuilt item)
      (sanitizeItems items >>= collect) Wanted := by
  have both : (passesItems items && items.all fun item => !rebuilt item) =
      items.all fun item => !rebuilt item := by
    cases all : items.all fun item => !rebuilt item with
    | true => rw [passing all, Bool.true_and]
    | false => rw [Bool.and_false]
  rw [← both]
  refine inside.bind fun results done => ?_
  rcases done with ⟨clean, keeps, settled, hashable⟩
  rw [← hashable]
  have collected := collect_spec results
  cases gathered : collect results with
  | error error =>
      rw [gathered] at collected
      exact collected
  | ok members =>
      rw [gathered] at collected
      rcases collected with ⟨holds, same, again⟩
      refine ⟨holds, wanted results members keeps same ?_ ?_ again⟩
      · rw [← clean, cleanItems_eq_all, cleanItems_eq_all, Bool.eq_iff_iff, List.all_eq_true,
          List.all_eq_true]
        exact ⟨fun all item member => all item ((same item).mpr member),
          fun all item member => all item ((same item).mp member)⟩
      · exact sanitizeItems_of_settled fun item member => settled item ((same item).mp member)

theorem passes_of_not_rebuilt {value : PyObject} (none : rebuilt value = false) :
    passes value = true := by
  cases value <;> first | rfl | cases none

theorem passesItems_of_not_rebuilt {items : List PyObject}
    (none : (items.all fun item => !rebuilt item) = true) : passesItems items = true := by
  induction items with
  | nil => rfl
  | cons item rest induction =>
      rw [List.all_cons, Bool.and_eq_true, Bool.not_eq_true'] at none
      rw [passesItems, passes_of_not_rebuilt none.1, induction none.2, Bool.and_self]

theorem sanitizeItem_of_items {items : List PyObject}
    (settled : ∀ item ∈ items, sanitizeItem item = .ok item) :
    sanitizeItem (.list items) = .ok (.list items) := by
  rw [sanitizeItem_list, sanitizeItems_of_settled settled]
  rfl

theorem sanitizeItem_of_members {members : List PyObject}
    (settled : sanitizeItems members = .ok members) (again : collect members = .ok members) :
    sanitizeItem (.set members) = .ok (.set members) := by
  rw [sanitizeItem_set, settled]
  exact congrArg (· >>= fun members => pure (PyObject.set members)) again

mutual
theorem sanitizeItem_spec : (value : PyObject) →
    Outcome (passes value) (sanitizeItem value) (Settled value)
  | .str text => settled_text text
  | .scalar repr => .ok ⟨rfl, .same _, rfl, rfl, rfl⟩
  | .model fields dumped => .ok ⟨rfl, .same _, rfl, rfl, rfl⟩
  | .dataclass fields copies => .ok ⟨rfl, .same _, rfl, rfl, rfl⟩
  | .exception typeName text => .ok ⟨rfl, .same _, rfl, rfl, rfl⟩
  | .dict entries =>
      (redact_spec entries).map fun results done =>
        ⟨done.1, .dict done.2.1, by rw [sanitizeItem_dict, done.2.2]; rfl, rfl, rfl⟩
  | .list items =>
      (sanitizeItems_spec items).map fun results done =>
        ⟨done.1, .list done.2.1, sanitizeItem_of_items done.2.2.1, rfl, rfl⟩
  | .tuple items =>
      (sanitizeItems_spec items).map fun results done =>
        ⟨done.1, .tuple done.2.1, sanitizeItem_of_items done.2.2.1, rfl, rfl⟩
  | .set items => by
      rw [sanitizeItem_set]
      exact (settled_members (sanitizeItems_spec items) passesItems_of_not_rebuilt
        fun results members keeps same clean settled again =>
          ⟨clean, .set keeps same, sanitizeItem_of_members settled again, rfl, rfl⟩).map
            fun _ => id
  | .frozenset items => by
      have same : sanitizeItem (.frozenset items) = sanitizeItem (.set items) := rfl
      rw [same, sanitizeItem_set]
      exact (settled_members (sanitizeItems_spec items) passesItems_of_not_rebuilt
        fun results members keeps same clean settled again =>
          ⟨clean, .frozenset keeps same, sanitizeItem_of_members settled again, rfl, rfl⟩).map
            fun _ => id

theorem sanitizeItems_spec : (items : List PyObject) →
    Outcome (passesItems items) (sanitizeItems items) fun results =>
      cleanItems results = hidesItems items ∧ KeepsItems items results ∧
        (∀ result ∈ results, sanitizeItem result = .ok result) ∧
        (results.all fun result => result.unhashable.isNone) =
          items.all fun item => !rebuilt item
  | [] => .ok ⟨rfl, .nil, by simp, rfl⟩
  | item :: rest => by
      rw [sanitizeItems_cons, passesItems]
      refine (sanitizeItem_spec item).bind fun sanitized here =>
        (sanitizeItems_spec rest).map fun others there => ?_
      rcases there with ⟨clean, keeps, settled, hashable⟩
      refine ⟨?_, .cons here.keeps keeps, ?_, ?_⟩
      · rw [cleanItems, hidesItems, here.clean, clean]
      · intro result member
        rcases List.mem_cons.mp member with rfl | later
        · exact here.again
        · exact settled result later
      · rw [List.all_cons, List.all_cons, here.hashable, hashable]

theorem redact_spec : (entries : List (PyKey × PyObject)) →
    Outcome (passesEntries entries) (redact entries) fun results =>
      cleanEntries results = hidesEntries entries ∧ KeepsEntries entries results ∧
        redact results = .ok results
  | [] => .ok ⟨rfl, .nil, rfl⟩
  | (.other typeName repr, value) :: rest => by
      rcases redact_other typeName repr value rest with ⟨error, raises⟩
      rw [raises]
      exact rfl
  | (.str text, value) :: rest => by
      rw [redact_cons, passesEntries]
      by_cases named : Secrets.looksSecret text = true
      · rw [if_pos named, named, Bool.true_or, Bool.true_and]
        refine (redact_spec rest).map fun others there => ⟨?_, ?_, ?_⟩
        · rw [cleanEntries, hidesEntries, there.1, secretNamed, named]
          rfl
        · exact .named named there.2.1
        · rw [redact_cons, if_pos named, there.2.2]
          rfl
      · rw [if_neg named, Bool.eq_false_of_not_eq_true named, Bool.false_or]
        refine (sanitizeItem_spec value).bind fun redacted here =>
          (redact_spec rest).map fun others there => ⟨?_, ?_, ?_⟩
        · rw [cleanEntries, hidesEntries, there.1, secretNamed,
            Bool.eq_false_of_not_eq_true named, Bool.false_or, here.clean]
          rfl
        · exact .cons here.keeps there.2.1
        · rw [redact_cons, if_neg named, here.again, there.2.2]
          rfl
end

/-! ## Whole values -/

mutual
theorem passes_ofJson : (value : Json) → passes (ofJson value) = true
  | .null | .bool true | .bool false | .int _ | .float _ | .str _ => rfl
  | .arr items => passesItems_ofItems items
  | .obj fields => passesEntries_ofFields fields

theorem passesItems_ofItems : (items : List Json) → passesItems (ofItems items) = true
  | [] => rfl
  | item :: rest => by
      rw [ofItems, passesItems, passes_ofJson item, passesItems_ofItems rest, Bool.and_self]

theorem passesEntries_ofFields : (fields : List (String × Json)) →
    passesEntries (ofFields fields) = true
  | [] => rfl
  | (name, value) :: rest => by
      rw [ofFields, passesEntries, passes_ofJson value, passesEntries_ofFields rest,
        Bool.or_true, Bool.and_self]
end

mutual
theorem hides_ofJson : (value : Json) → hides (ofJson value) = true
  | .null | .bool true | .bool false | .int _ | .float _ | .str _ => rfl
  | .arr items => hidesItems_ofItems items
  | .obj fields => hidesEntries_ofFields fields

theorem hidesItems_ofItems : (items : List Json) → hidesItems (ofItems items) = true
  | [] => rfl
  | item :: rest => by
      rw [ofItems, hidesItems, hides_ofJson item, hidesItems_ofItems rest, Bool.and_self]

theorem hidesEntries_ofFields : (fields : List (String × Json)) →
    hidesEntries (ofFields fields) = true
  | [] => rfl
  | (name, value) :: rest => by
      rw [ofFields, hidesEntries, hides_ofJson value, hidesEntries_ofFields rest,
        Bool.or_true, Bool.and_self]
end

theorem isObject_ofJson (value : Json) : isObject (ofJson value) = false := by
  cases value with
  | bool truth => cases truth <;> rfl
  | _ => rfl

theorem sanitize_of_plain {value : PyObject} (plain : isObject value = false) :
    sanitize value = sanitizeItem value := by
  cases value with
  | model fields dumped => cases plain
  | dataclass fields copies => cases plain
  | exception typeName text => cases plain
  | _ => rfl

/-- Where the sanitizer keeps the rest and is done, only what it should have hidden matters. -/
theorem exists_sanitizesTo {value result : PyObject} (done : sanitize value = .ok result)
    (keeps : Keeps value result) (again : clean result = true → sanitize result = .ok result) :
    (∃ result, SanitizesTo value result) ↔ clean result = true := by
  constructor
  · rintro ⟨other, same, clean, _⟩
    cases done.symm.trans same
    exact clean
  · exact fun clean => ⟨result, done, clean, keeps, again clean⟩

theorem exists_sanitizesTo_of_plain {value : PyObject} (plain : isObject value = false) :
    (∃ result, SanitizesTo value result) ↔ (passes value && hides value) = true := by
  have spec := sanitizeItem_spec value
  cases passing : passes value with
  | false =>
      rw [passing] at spec
      rcases spec.exists_error rfl with ⟨error, raised⟩
      rw [Bool.false_and]
      refine iff_of_false ?_ Bool.false_ne_true
      rintro ⟨result, done, _⟩
      rw [sanitize_of_plain plain, raised] at done
      cases done
  | true =>
      rw [passing] at spec
      rcases spec.exists_ok rfl with ⟨result, done, settled⟩
      rw [Bool.true_and, ← settled.clean]
      refine exists_sanitizesTo ((sanitize_of_plain plain).trans done) settled.keeps fun _ => ?_
      rw [sanitize_of_plain (settled.plain.trans plain)]
      exact settled.again

theorem exists_sanitizesTo_exception (typeName text : String) :
    (∃ result, SanitizesTo (.exception typeName (some text)) result) ↔
      sanitizable (.exception typeName (some text)) = true := by
  have again : ∀ {told : String}, clean (.str told) = true →
      sanitize (.str told) = .ok (.str told) := by
    intro told clean
    have shapeless : Secrets.looksLikeSecretValue told = false := by
      rwa [PyObject.clean, Bool.not_eq_true'] at clean
    exact if_neg (by rw [looksLikeSecret, shapeless]; decide)
  by_cases shaped : Secrets.looksLikeSecretValue (typeName ++ ": " ++ text) = true
  · have done : sanitize (.exception typeName (some text)) = .ok (.str (typeName ++ ": ***")) :=
      congrArg (fun told => Except.ok (PyObject.str told)) (if_pos shaped)
    rw [exists_sanitizesTo done (.maskedException shaped) again, sanitizable, shaped, clean]
    rfl
  · have done : sanitize (.exception typeName (some text)) =
        .ok (.str (typeName ++ ": " ++ text)) :=
      congrArg (fun told => Except.ok (PyObject.str told)) (if_neg shaped)
    rw [exists_sanitizesTo done .exception again, sanitizable,
      Bool.eq_false_of_not_eq_true shaped, clean, Bool.eq_false_of_not_eq_true shaped]
    rfl

theorem exists_sanitizesTo_model (fields : List (String × PyObject)) (dump : Json) :
    ∃ result, SanitizesTo (.model fields (some dump)) result := by
  have spec := sanitizeItem_spec (ofJson dump)
  rcases spec.exists_ok (passes_ofJson dump) with ⟨result, dumped, settled⟩
  have done : sanitize (.model fields (some dump)) = .ok result := by
    rw [sanitize, dumped]
    rfl
  refine ⟨result, done, settled.clean.trans (hides_ofJson dump), .model settled.keeps, ?_⟩
  rw [sanitize_of_plain (settled.plain.trans (isObject_ofJson dump))]
  exact settled.again

theorem exists_sanitizesTo_dataclass (fields : List (String × PyObject)) (copies : Bool) :
    (∃ result, SanitizesTo (.dataclass fields copies) result) ↔
      sanitizable (.dataclass fields copies) = true := by
  cases copies with
  | false => exact exists_sanitizesTo rfl (.same _) fun _ => rfl
  | true =>
      have spec := sanitizeItem_spec (.dict (asDictFields fields))
      rw [sanitizable, Bool.true_and]
      cases passing : passesEntries (asDictFields fields) with
      | false =>
          rcases spec.exists_error passing with ⟨error, raised⟩
          have done : sanitize (.dataclass fields true) = .ok (.dataclass fields true) := by
            rw [sanitize, raised]
            rfl
          exact exists_sanitizesTo done (.same _) fun _ => done
      | true =>
          rcases spec.exists_ok passing with ⟨result, copied, settled⟩
          have done : sanitize (.dataclass fields true) = .ok result := by
            rw [sanitize, copied]
            rfl
          rw [if_pos rfl, exists_sanitizesTo done (.dataclass settled.keeps), settled.clean]
          · rfl
          · intro _
            rw [sanitize_of_plain settled.plain]
            exact settled.again

theorem exists_redactsTo (entries : List (PyKey × PyObject)) :
    (∃ results, RedactsTo entries results) ↔
      (passesEntries entries && hidesEntries entries) = true := by
  have spec := redact_spec entries
  cases passing : passesEntries entries with
  | false =>
      rw [passing] at spec
      rcases spec.exists_error rfl with ⟨error, raised⟩
      rw [Bool.false_and]
      refine iff_of_false ?_ Bool.false_ne_true
      rintro ⟨results, done, _⟩
      rw [raised] at done
      cases done
  | true =>
      rw [passing] at spec
      rcases spec.exists_ok rfl with ⟨results, done, clean, keeps, again⟩
      rw [Bool.true_and, ← clean]
      constructor
      · rintro ⟨others, same, hidden, _⟩
        cases done.symm.trans same
        exact hidden
      · exact fun hidden => ⟨results, done, hidden, keeps, again⟩

/-- Sanitizing is total, complete and idempotent exactly on the values that the sanitizer
takes care of. -/
theorem sanitizesTo_iff_sanitizable (value : PyObject) (entries : List (PyKey × PyObject)) :
    ((∃ result, SanitizesTo value result) ↔ sanitizable value = true) ∧
      ((∃ results, RedactsTo entries results) ↔
        (passesEntries entries && hidesEntries entries) = true) := by
  refine ⟨?_, exists_redactsTo entries⟩
  cases value with
  | exception typeName text =>
      cases text with
      | none =>
          refine iff_of_false ?_ Bool.false_ne_true
          rintro ⟨result, done, _⟩
          cases done
      | some text => exact exists_sanitizesTo_exception typeName text
  | model fields dumped =>
      cases dumped with
      | none => exact exists_sanitizesTo rfl (.same _) fun _ => rfl
      | some dump => exact iff_of_true (exists_sanitizesTo_model fields dump) rfl
  | dataclass fields copies => exact exists_sanitizesTo_dataclass fields copies
  | _ => exact exists_sanitizesTo_of_plain rfl

/-- A key that is no text raises, so does a tuple in a set, and a model in a list keeps its
credential. -/
theorem secrets_left_or_raised :
    (¬ ∃ results, RedactsTo [(.other "int" "1", .str "a")] results) ∧
      (¬ ∃ result, SanitizesTo (.set [.tuple [.scalar "1", .scalar "2"]]) result) ∧
      ¬ ∃ result, SanitizesTo (.list [.model [("note", .str "sk-abcd1234")]
        (some (.obj [("note", .str "sk-abcd1234")]))]) result := by
  refine ⟨?_, ?_, ?_⟩
  · rintro ⟨results, raised, _⟩
    cases raised
  · rintro ⟨result, raised, _⟩
    cases raised
  · rintro ⟨result, kept, hidden, _⟩
    cases kept
    revert hidden
    decide

end Raphael.Core.PyObject
