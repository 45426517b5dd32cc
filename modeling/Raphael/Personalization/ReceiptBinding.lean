import Raphael.Core.JsonRoundTrip
import Raphael.Personalization.MemoryTrust

/-! # Receipts are bound to content

Which candidates a receipt vouches for, and what the record holds that is stored under it. -/

namespace Raphael.Personalization

open Core Foundation Persistence

section Binding

variable {Score : Type}

/-- Two candidates are one in what a receipt vouches for. Scores agree if they are the same
float: each zero has its sign. -/
structure MemoryCandidate.Agrees (left right : MemoryCandidate Score) : Prop where
  content : left.content = right.content
  type : left.type = right.type
  source : left.source = right.source
  confidence : left.confidence = right.confidence
  importance : left.importance = right.importance
  scope : left.scope = right.scope
  scopeId : left.scopeId = right.scopeId

/-- The texts of floats tell them apart, and none has a comma. -/
structure WritesFloats (runtime : MemoryRuntime Score) : Prop where
  injective : Function.Injective runtime.floatText
  noComma : ∀ score, ',' ∉ (runtime.floatText score).toList

/-! ## The canonical text -/

theorem MemoryType.value_injective : Function.Injective MemoryType.value := by
  intro left right same
  cases left <;> cases right <;> first | rfl | exact absurd same (by decide)

theorem MemoryScope.value_injective : Function.Injective MemoryScope.value := by
  intro left right same
  cases left <;> cases right <;> first | rfl | exact absurd same (by decide)

/-- The document that is hashed. -/
def candidateDocument (runtime : MemoryRuntime Score) (candidate : MemoryCandidate Score) : Json :=
  .obj [
    ("content", .str candidate.content),
    ("type", .str candidate.type.value),
    ("source", .str candidate.source),
    ("confidence", .float (runtime.floatText candidate.confidence)),
    ("importance", .float (runtime.floatText candidate.importance)),
    ("scope", .str candidate.scope.value),
    ("scope_id", .str candidate.scopeId)]

/-- What stands in front of the first comma is found again. -/
theorem append_comma_inj {first second rest others : List Char} (plain : ',' ∉ first)
    (plain' : ',' ∉ second) (same : first ++ ',' :: rest = second ++ ',' :: others) :
    first = second ∧ rest = others := by
  have front : ∀ {text behind : List Char}, ',' ∉ text →
      (text ++ ',' :: behind).takeWhile (· != ',') = text := by
    intro text behind plain
    have kept : ∀ character ∈ text, (character != ',') = true := fun character member =>
      bne_iff_ne.mpr fun comma => plain (comma ▸ member)
    rw [List.takeWhile_append_of_pos kept, List.takeWhile_cons_of_neg (by decide), List.append_nil]
  have texts := congrArg (List.takeWhile (· != ',')) same
  rw [front plain, front plain'] at texts
  subst texts
  exact ⟨rfl, (List.cons.inj (List.append_cancel_left same)).2⟩

/-- A key in the text of an object. -/
def keyText (key : String) : List Char := (Json.quote key).toList ++ [':']

/-- The text of the document: its fields by their keys, with a comma in front of all but the
first. -/
theorem toList_canonicalText (runtime : MemoryRuntime Score) (candidate : MemoryCandidate Score) :
    (candidateDocument runtime candidate).canonicalText.toList =
      '\x7b' :: (keyText "confidence" ++ ((runtime.floatText candidate.confidence).toList ++ ',' ::
        (keyText "content" ++ ((Json.quote candidate.content).toList ++ ',' ::
          (keyText "importance" ++ ((runtime.floatText candidate.importance).toList ++ ',' ::
            (keyText "scope" ++ ((Json.quote candidate.scope.value).toList ++ ',' ::
              (keyText "scope_id" ++ ((Json.quote candidate.scopeId).toList ++ ',' ::
                (keyText "source" ++ ((Json.quote candidate.source).toList ++ ',' ::
                  (keyText "type" ++ ((Json.quote candidate.type.value).toList ++
                    ['\x7d'])))))))))))))) := by
  have sorted : (candidateDocument runtime candidate).sortKeys = .obj [
      ("confidence", .float (runtime.floatText candidate.confidence)),
      ("content", .str candidate.content),
      ("importance", .float (runtime.floatText candidate.importance)),
      ("scope", .str candidate.scope.value),
      ("scope_id", .str candidate.scopeId),
      ("source", .str candidate.source),
      ("type", .str candidate.type.value)] := by
    simp only [candidateDocument, Json.sortKeys, Json.sortFields, Json.obj.injEq]
    simp [List.insertionSort, List.orderedInsert]
  rw [Json.canonicalText, sorted]
  simp [Json.dumps, Json.dumpFields, Text.join, keyText]

variable {runtime : MemoryRuntime Score} {left right : MemoryCandidate Score}

/-- The canonical texts of two candidates are one exactly if the candidates agree: each field is
found again behind the one before it. -/
theorem canonicalText_eq_iff (floats : WritesFloats runtime) :
    (candidateDocument runtime left).canonicalText =
      (candidateDocument runtime right).canonicalText ↔ left.Agrees right := by
  have float : ∀ {first second : Score} {rest others : List Char},
      (runtime.floatText first).toList ++ ',' :: rest =
        (runtime.floatText second).toList ++ ',' :: others → first = second ∧ rest = others := by
    intro first second rest others same
    rcases append_comma_inj (floats.noComma first) (floats.noComma second) same with
      ⟨texts, behind⟩
    exact ⟨floats.injective (String.ext texts), behind⟩
  constructor
  · intro same
    have start := congrArg String.toList same
    rw [toList_canonicalText, toList_canonicalText, List.cons.injEq] at start
    have ⟨confidence, afterConfidence⟩ := float (List.append_cancel_left start.2)
    have ⟨content, afterContent⟩ :=
      JsonDecoder.quote_append_inj (List.append_cancel_left afterConfidence)
    have ⟨importance, afterImportance⟩ :=
      float (List.append_cancel_left (List.cons.inj afterContent).2)
    have ⟨scope, afterScope⟩ :=
      JsonDecoder.quote_append_inj (List.append_cancel_left afterImportance)
    have ⟨scopeId, afterScopeId⟩ :=
      JsonDecoder.quote_append_inj (List.append_cancel_left (List.cons.inj afterScope).2)
    have ⟨source, afterSource⟩ :=
      JsonDecoder.quote_append_inj (List.append_cancel_left (List.cons.inj afterScopeId).2)
    have ⟨type, _⟩ :=
      JsonDecoder.quote_append_inj (List.append_cancel_left (List.cons.inj afterSource).2)
    exact ⟨content, MemoryType.value_injective type, source, confidence, importance,
      MemoryScope.value_injective scope, scopeId⟩
  · intro agrees
    unfold candidateDocument
    rw [agrees.content, agrees.type, agrees.source, agrees.confidence, agrees.importance,
      agrees.scope, agrees.scopeId]

/-! ## The record -/

/-- The record that is made of a candidate agrees with it. -/
theorem newMemory_agrees {store : MemoryStore Score} {id : String} {now : Int}
    {candidate : MemoryCandidate Score} {related : List String}
    {receipt : Option VerificationReceipt} {memory : Memory Score}
    (made : store.newMemory id now candidate related receipt = .ok memory) :
    candidate.Agrees memory.asCandidate := by
  unfold MemoryStore.newMemory at made
  rcases except_bind_eq_ok.mp made with ⟨retentionDays, _, made⟩
  rcases except_bind_eq_ok.mp made with ⟨expiresAt, _, made⟩
  cases made
  exact ⟨rfl, rfl, rfl, rfl, rfl, rfl, rfl⟩

variable [LE Score] [LT Score] [DecidableLE Score] [DecidableLT Score] [Zero Score]
  [One Score]

/-- A receipt is valid for a candidate exactly if the candidate agrees with the one that it was
made for, and the record that is stored under it agrees with its candidate. -/
theorem receipt_binds (store : MemoryStore Score)
    (hashes : Function.Injective store.runtime.sha256) (floats : WritesFloats store.runtime)
    {verified candidate : MemoryCandidate Score} {receipt : VerificationReceipt} {now : Int}
    {evidenceIds : List String} {verifier method : String}
    (minted : MemoryVerifier.verify store.runtime now verified evidenceIds verifier method =
      .ok receipt) :
    (MemoryVerifier.valid store.runtime candidate receipt = true ↔ verified.Agrees candidate) ∧
      ∀ id now table memory next,
        store.storeVerified id now candidate receipt table = .ok memory next →
          candidate.Agrees memory.asCandidate ∧ memory ∈ next.rows := by
  have hash : receipt.memoryHash = candidateHash store.runtime verified := by
    unfold MemoryVerifier.verify at minted
    split_ifs at minted
    cases minted
    rfl
  constructor
  · rw [MemoryVerifier.valid, beq_iff_eq, hash]
    exact hashes.eq_iff.trans (canonicalText_eq_iff floats)
  · intro id now table memory next returns
    unfold MemoryStore.storeVerified at returns
    split at returns
    · rcases storeWith_cases store id now candidate (some receipt) table with
        ⟨error, raises⟩ | ⟨related, made, created, after, isMade, written, stores⟩
      · cases raises.symm.trans returns
      · cases stores.symm.trans returns
        have ⟨touched, rows, _⟩ := SnapshotTable.create_eq_ok written
        have agrees : candidate.Agrees made.asCandidate := newMemory_agrees isMade
        subst touched
        rw [rows]
        exact ⟨agrees, List.mem_append_right _ (List.mem_singleton_self _)⟩
    · cases returns

end Binding

/-! A candidate that gives other reasons for the same content is vouched for as well. -/

/-- Floats of whole tenths. -/
structure Tenths where
  count : Nat
  deriving DecidableEq

instance : LE Tenths := ⟨fun left right => left.count ≤ right.count⟩

instance : LT Tenths := ⟨fun left right => left.count < right.count⟩

instance : DecidableLE Tenths := fun left right =>
  inferInstanceAs (Decidable (left.count ≤ right.count))

instance : DecidableLT Tenths := fun left right =>
  inferInstanceAs (Decidable (left.count < right.count))

instance : Zero Tenths := ⟨⟨0⟩⟩

instance : One Tenths := ⟨⟨10⟩⟩

def tenthsStore : MemoryStore Tenths where
  runtime := {
    sha256 := id
    floatText := fun score =>
      Text.join "." [(score.count / 10).repr, (score.count % 10).repr]
    fixedText := fun score =>
      Text.join "." [(score.count / 10).repr, (score.count % 10).repr ++ "0"]
    outlives := fun age days => days * 86400000000 < age
    readDays := fun _ => .ok none
    readMoment := fun _ => .ok none }
  importanceThreshold := ⟨3⟩

private theorem not_mem_repr {mark : Char} (noDigit : mark.isDigit = false) (number : Nat) :
    mark ∉ number.repr.toList := by
  intro member
  rw [Nat.toList_repr] at member
  have digit := Text.isDigit_of_mem_decimals member
  exact absurd (digit.symm.trans noDigit) Bool.true_eq_false.mp

theorem tenthsStore_writesFloats : WritesFloats tenthsStore.runtime where
  injective := by
    intro left right same
    have parts : ∀ whole tenth : Nat,
        Text.split '.' (Text.join "." [whole.repr, tenth.repr]) = [whole.repr, tenth.repr] := by
      intro whole tenth
      apply Text.split_join (List.cons_ne_nil _ _)
      rw [List.forall_mem_cons, List.forall_mem_singleton]
      exact ⟨not_mem_repr (by decide) whole, not_mem_repr (by decide) tenth⟩
    have found := congrArg (Text.split '.') same
    simp only [tenthsStore, parts, List.cons.injEq, and_true] at found
    have whole := Text.decimal_inj found.1
    have tenth := Text.decimal_inj found.2
    have counts : left.count = right.count := by omega
    cases left
    cases right
    exact congrArg Tenths.mk counts
  noComma := by
    intro score member
    simp only [tenthsStore, Text.join, String.toList_intercalate, List.map_cons, List.map_nil,
      List.intercalate_cons_cons, List.intercalate_singleton, List.mem_append] at member
    rcases member with (whole | dot) | tenth
    · exact not_mem_repr (by decide) _ whole
    · revert dot
      decide
    · exact not_mem_repr (by decide) _ tenth

def sighting : MemoryCandidate Tenths where
  content := "Observed result"
  confidence := ⟨9⟩
  importance := ⟨9⟩

def sighted : VerificationReceipt where
  memoryHash := candidateHash tenthsStore.runtime sighting
  evidenceIds := ["event:1"]
  verifier := "system-verifier"
  method := "observed-state"
  verifiedAt := 0

/-- The candidate is proposed once more, for another reason. -/
def sightingAgain : MemoryCandidate Tenths := { sighting with reason := "again" }

theorem receipt_binds_sighting :
    (MemoryVerifier.valid tenthsStore.runtime sightingAgain sighted = true ↔
        sighting.Agrees sightingAgain) ∧
      ∀ id now table memory next,
        tenthsStore.storeVerified id now sightingAgain sighted table = .ok memory next →
          sightingAgain.Agrees memory.asCandidate ∧ memory ∈ next.rows := by
  have minted : MemoryVerifier.verify tenthsStore.runtime 0 sighting ["event:1"]
      "system-verifier" "observed-state" = .ok sighted := rfl
  exact receipt_binds tenthsStore Function.injective_id tenthsStore_writesFloats minted

example : ∃ memory next, tenthsStore.storeVerified "m1" 0 sightingAgain sighted
    (.empty "memories") = .ok memory next := ⟨_, _, rfl⟩

end Raphael.Personalization
