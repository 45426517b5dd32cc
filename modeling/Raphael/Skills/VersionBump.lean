import Raphael.Core.IntText
import Raphael.Skills.SkillRegistry

/-! # The next version

When a valid version has a key, and when the version that a bump makes of it is valid and
goes behind it: the three functions tell numbers from text each in its own way. -/

namespace Raphael.Skills

open Core

/-- Versions of any characters. -/
def pythonText (classes : CharacterClasses) : VersionText where
  isDigit := classes.isDigitText
  isAlnum := classes.isAlnumText
  readInt := classes.readInt
  showInt := showInt

/-! ## What is wanted of a version -/

section Wanted

variable (text : VersionText)

/-- The version has a key that compares with every other one, and what a bump makes of it is
valid and has a greater key. -/
structure BumpFits (version : String) : Prop where
  keyed : ∃ key, versionKey text version = some key
  comparable : ∀ other key otherKey, validVersion text other = true →
    versionKey text version = some key → versionKey text other = some otherKey →
      key ≤ otherKey ∨ otherKey ≤ key
  valid : validVersion text (bump text version) = true
  greater : ∃ key next, versionKey text version = some key ∧
    versionKey text (bump text version) = some next ∧ key < next

/-- Every chunk of digits can be read, and if the last of three chunks or more is read
although it is no text of digits, then the next integer is negative, too, and is written as a
text behind the chunk. -/
structure Bumpable (version : String) : Prop where
  readable : Readable text version
  replaced : ∀ last value next, 3 ≤ (chunks version).length →
    (chunks version).getLast? = some last → text.isDigit last = false →
      text.readInt last = some value → text.showInt (value + 1) = some next →
        value < -1 ∧ last < next

end Wanted

section Python

variable (classes : CharacterClasses)

/-- What a valid version asks of a chunk. -/
def ValidChunk (chunk : String) : Prop :=
  classes.isDigitText chunk = true ∨
    classes.isAlnumText (String.ofList (chunk.toList.filter fun character =>
      character != '-' && character != '_')) = true

theorem validVersion_iff (version : String) :
    validVersion (pythonText classes) version = true ↔
      ∀ chunk ∈ chunks version, ValidChunk classes chunk := by
  have empty : ¬ ValidChunk classes "" := by simp [ValidChunk, CharacterClasses.isDigitText,
    CharacterClasses.isAlnumText]
  unfold validVersion
  rw [Bool.and_eq_true, List.all_eq_true, bne_iff_ne]
  simp only [Bool.or_eq_true]
  refine ⟨fun valid => valid.2, fun valid => ⟨?_, valid⟩⟩
  rintro rfl
  exact empty (valid "" (List.mem_singleton.mpr rfl))

variable {classes}

theorem dot_not_mem_shown {value : Int} {shown : String} (shows : showInt value = some shown) :
    '.' ∉ shown.toList := by
  intro member
  rcases mem_shown shows member with ⟨same, _⟩ | isDigit
  · cases same
  · cases isDigit

theorem chunkKey_shown {value : Int} {shown : String} (shows : showInt value = some shown) :
    chunkKey (pythonText classes) shown =
      some (if 0 ≤ value then toLex (0, toLex (value, "")) else toLex (1, toLex (0, shown))) := by
  have reads := classes.readInt_of_showInt shows
  have digits := classes.isDigitText_shown shows
  unfold chunkKey pythonText
  dsimp only
  by_cases nonnegative : 0 ≤ value
  · rw [if_pos (digits.mpr nonnegative), if_pos nonnegative, reads]
    rfl
  · rw [if_neg (digits.not.mpr nonnegative), if_neg nonnegative]

/-! ## Versions made of others -/

/-- A chunk of the version, or a number that is written. -/
def Provided (version chunk : String) : Prop :=
  chunk ∈ chunks version ∨ ∃ value, showInt value = some chunk

theorem chunks_of_provided {version : String} {parts : List String} (nonempty : parts ≠ [])
    (provided : ∀ part ∈ parts, Provided version part) :
    chunks (Text.join "." parts) = parts := by
  apply Text.split_join nonempty
  intro part member
  rcases provided part member with old | ⟨value, shows⟩
  · exact Text.not_mem_of_mem_split old
  · exact dot_not_mem_shown shows

theorem valid_of_provided {version next : String}
    (valid : validVersion (pythonText classes) version = true)
    (provided : ∀ chunk ∈ chunks next, Provided version chunk) :
    validVersion (pythonText classes) next = true := by
  rw [validVersion_iff] at valid ⊢
  intro chunk member
  rcases provided chunk member with old | ⟨value, shows⟩
  · exact valid chunk old
  · exact .inr (classes.isAlnumText_shown shows)

theorem readable_of_provided {version next : String}
    (readable : Readable (pythonText classes) version)
    (provided : ∀ chunk ∈ chunks next, Provided version chunk) :
    Readable (pythonText classes) next := by
  intro chunk member
  rcases provided chunk member with old | ⟨value, shows⟩
  · exact readable chunk old
  · unfold pythonText
    dsimp only
    rw [classes.readInt_of_showInt shows]
    exact fun _ => rfl

/-- A bump that is made of the version's chunks and of numbers fits if its key is greater. -/
theorem bumpFits_of_provided {version : String}
    (valid : validVersion (pythonText classes) version = true)
    (provided : ∀ chunk ∈ chunks (bump (pythonText classes) version), Provided version chunk) :
    BumpFits (pythonText classes) version ↔ Readable (pythonText classes) version ∧
      ∀ key next, versionKey (pythonText classes) version = some key →
        versionKey (pythonText classes) (bump (pythonText classes) version) = some next →
          key < next := by
  constructor
  · intro fits
    refine ⟨(versionKey_isSome_iff _ version).mp fits.keyed, fun key next isKey isNext => ?_⟩
    rcases fits.greater with ⟨_, _, same, same', less⟩
    cases isKey.symm.trans same
    cases isNext.symm.trans same'
    exact less
  · rintro ⟨readable, greater⟩
    have readableNext := readable_of_provided readable provided
    rcases (versionKey_isSome_iff _ version).mpr readable with ⟨key, isKey⟩
    rcases (versionKey_isSome_iff _ _).mpr readableNext with ⟨next, isNext⟩
    exact ⟨⟨key, isKey⟩, fun _ key otherKey _ _ _ => le_total key otherKey,
      valid_of_provided valid provided, key, next, isKey, isNext, greater key next isKey isNext⟩

/-! ## The order of the keys -/

theorem append_lt_append_iff (front : VersionKey) {left right : VersionKey} :
    front ++ left < front ++ right ↔ left < right := by
  induction front with
  | nil => rfl
  | cons first rest induction => simp [induction]

/-- More chunks behind the others make a greater key. -/
theorem versionKey_lt_of_appends {text : VersionText} {version next : String}
    {tail : List String} {key nextKey : VersionKey} (nonempty : tail ≠ [])
    (isChunks : chunks next = chunks version ++ tail)
    (isKey : versionKey text version = some key) (isNext : versionKey text next = some nextKey) :
    key < nextKey := by
  unfold versionKey at isKey isNext
  rw [isChunks, List.mapM_append, isKey] at isNext
  simp only [Option.bind_eq_bind, Option.bind_some, Option.bind_eq_some_iff,
    Option.pure_def, Option.some.injEq] at isNext
  rcases isNext with ⟨more, isMore, rfl⟩
  have longer : [] < more := by
    cases tail with
    | nil => exact absurd rfl nonempty
    | cons chunk rest =>
        simp only [List.mapM_cons, Option.bind_eq_bind, Option.bind_eq_some_iff,
          Option.pure_def, Option.some.injEq] at isMore
        rcases isMore with ⟨first, _, others, _, rfl⟩
        exact List.nil_lt_cons first others
  have behind := (append_lt_append_iff key).mpr longer
  rw [List.append_nil] at behind
  exact behind

/-- The key of a version by its last chunk. -/
theorem versionKey_concat {text : VersionText} {version last : String} {front : List String}
    {key : VersionKey} (isChunks : chunks version = front ++ [last]) :
    versionKey text version = some key ↔ ∃ frontKey lastKey,
      front.mapM (chunkKey text) = some frontKey ∧ chunkKey text last = some lastKey ∧
        frontKey ++ [lastKey] = key := by
  unfold versionKey
  rw [isChunks, List.mapM_append]
  cases front.mapM (chunkKey text) with
  | none => simp
  | some frontKey =>
      rw [List.mapM_cons, List.mapM_nil]
      cases chunkKey text last <;> simp

/-- Of two versions with the same chunks in front, the last chunks decide. -/
theorem versionKey_lt_iff_last {text : VersionText} {version next last nextLast : String}
    {front : List String} {key nextKey : VersionKey} (isChunks : chunks version = front ++ [last])
    (isChunks' : chunks next = front ++ [nextLast]) (isKey : versionKey text version = some key)
    (isNext : versionKey text next = some nextKey) :
    key < nextKey ↔ ∃ lastKey nextLastKey, chunkKey text last = some lastKey ∧
      chunkKey text nextLast = some nextLastKey ∧ lastKey < nextLastKey := by
  rcases (versionKey_concat isChunks).mp isKey with ⟨frontKey, lastKey, isFront, isLast, rfl⟩
  rcases (versionKey_concat isChunks').mp isNext with
    ⟨_, nextLastKey, isFront', isNextLast, rfl⟩
  cases isFront.symm.trans isFront'
  rw [append_lt_append_iff, List.cons_lt_cons_iff, isLast, isNextLast]
  simp

/-- How the key of a chunk lies to that of the integer behind it. -/
theorem chunkKey_lt_iff {last next : String} {value : Int}
    {lastKey nextKey : Nat ×ₗ Int ×ₗ String}
    (isLast : chunkKey (pythonText classes) last = some lastKey)
    (isNext : chunkKey (pythonText classes) next = some nextKey)
    (reads : classes.readInt last = some value) (shows : showInt (value + 1) = some next) :
    lastKey < nextKey ↔ (classes.isDigitText last = false → value < -1 ∧ last < next) := by
  rw [chunkKey_shown shows] at isNext
  cases isNext
  unfold chunkKey pythonText at isLast
  dsimp only at isLast
  by_cases digits : classes.isDigitText last = true
  · have nonnegative := classes.readInt_nonneg digits reads
    rw [if_pos digits, reads] at isLast
    cases isLast
    rw [if_pos (by omega)]
    have less : value < value + 1 := by omega
    simp [Prod.Lex.toLex_lt_toLex, digits, less]
  · rw [if_neg digits] at isLast
    cases isLast
    rw [Bool.not_eq_true] at digits
    by_cases nonnegative : 0 ≤ value + 1
    · rw [if_pos nonnegative]
      refine iff_of_false ?_ fun needs => ?_
      · simp [Prod.Lex.toLex_lt_toLex]
      · have below := (needs digits).1
        omega
    · rw [if_neg nonnegative]
      have below : value < -1 := by omega
      simp [Prod.Lex.toLex_lt_toLex, digits, below]

/-! ## What a bump makes -/

theorem bump_of_short {version : String} (short : (chunks version).length < 3) :
    bump (pythonText classes) version = Text.join "."
      (chunks version ++ (List.replicate (2 - (chunks version).length) "0" ++ ["1"])) := by
  have padding : 3 - (chunks version).length = 2 - (chunks version).length + 1 := by omega
  have zero : classes.readInt "0" = some 0 := classes.readInt_of_showInt (by decide)
  have one : showInt (0 + 1) = some "1" := by decide
  unfold bump pythonText
  simp only [padding, List.replicate_succ', ← List.append_assoc, List.getLastD_concat, zero,
    Option.bind_some, one, List.dropLast_concat]

theorem bump_of_long {version : String} {front : List String} {last : String}
    (isChunks : chunks version = front ++ [last]) (long : 3 ≤ (chunks version).length) :
    bump (pythonText classes) version =
      ((classes.readInt last).bind fun value => showInt (value + 1)).elim
        (Text.join "." (chunks version ++ ["1"])) fun next => Text.join "." (front ++ [next]) := by
  rw [isChunks] at long
  have padding : 3 - (front ++ [last]).length = 0 := by omega
  unfold bump pythonText
  simp only [isChunks, padding, List.replicate_zero, List.append_nil, List.getLastD_concat,
    List.dropLast_concat]
  cases (classes.readInt last).bind fun value => showInt (value + 1) <;> rfl

/-- A bump that appends numbers fits whenever the version has a key. -/
theorem bumpFits_of_appends {version : String} {tail : List String} (nonempty : tail ≠ [])
    (numbers : ∀ chunk ∈ tail, ∃ value, showInt value = some chunk)
    (bumped : bump (pythonText classes) version = Text.join "." (chunks version ++ tail))
    (valid : validVersion (pythonText classes) version = true) :
    BumpFits (pythonText classes) version ↔ Readable (pythonText classes) version := by
  have provided : ∀ chunk ∈ chunks version ++ tail, Provided version chunk := by
    intro chunk member
    exact (List.mem_append.mp member).imp_right (numbers chunk)
  have parts : chunks (bump (pythonText classes) version) = chunks version ++ tail := by
    rw [bumped]
    exact chunks_of_provided (List.append_ne_nil_of_right_ne_nil _ nonempty) provided
  rw [bumpFits_of_provided valid (by rw [parts]; exact provided), and_iff_left]
  exact fun key next => versionKey_lt_of_appends nonempty parts

/-- A bump that replaces the last chunk fits if the new chunk goes behind it, too. -/
theorem bumpFits_of_replaces {version last next : String} {front : List String} {value : Int}
    (isChunks : chunks version = front ++ [last]) (reads : classes.readInt last = some value)
    (shows : showInt (value + 1) = some next)
    (bumped : bump (pythonText classes) version = Text.join "." (front ++ [next]))
    (valid : validVersion (pythonText classes) version = true) :
    BumpFits (pythonText classes) version ↔ Readable (pythonText classes) version ∧
      (classes.isDigitText last = false → value < -1 ∧ last < next) := by
  have provided : ∀ chunk ∈ front ++ [next], Provided version chunk := by
    intro chunk member
    rcases List.mem_append.mp member with old | new
    · exact .inl (by rw [isChunks]; exact List.mem_append_left _ old)
    · exact .inr ⟨value + 1, by rw [List.mem_singleton.mp new]; exact shows⟩
  have parts : chunks (bump (pythonText classes) version) = front ++ [next] := by
    rw [bumped]
    exact chunks_of_provided (List.append_ne_nil_of_right_ne_nil _ (List.cons_ne_nil _ _)) provided
  rw [bumpFits_of_provided valid (by rw [parts]; exact provided)]
  refine and_congr_right fun readable => ?_
  have readableNext := readable_of_provided readable (by rw [parts]; exact provided)
  rcases (versionKey_isSome_iff _ version).mpr readable with ⟨key, isKey⟩
  rcases (versionKey_isSome_iff _ _).mpr readableNext with ⟨nextKey, isNextKey⟩
  have decides := versionKey_lt_iff_last isChunks parts isKey isNextKey
  constructor
  · intro greater
    rcases decides.mp (greater key nextKey isKey isNextKey) with
      ⟨lastKey, nextLastKey, isLast, isNext, less⟩
    exact (chunkKey_lt_iff isLast isNext reads shows).mp less
  · intro behind _ _ same same'
    cases isKey.symm.trans same
    cases isNextKey.symm.trans same'
    rcases (versionKey_concat isChunks).mp isKey with ⟨_, lastKey, _, isLast, _⟩
    have isNext := @chunkKey_shown classes _ _ shows
    exact decides.mpr ⟨lastKey, _, isLast, isNext,
      (chunkKey_lt_iff isLast isNext reads shows).mpr behind⟩

theorem bumpable_iff {version : String} :
    Bumpable (pythonText classes) version ↔ Readable (pythonText classes) version ∧
      ∀ last value next, 3 ≤ (chunks version).length → (chunks version).getLast? = some last →
        classes.isDigitText last = false → classes.readInt last = some value →
          showInt (value + 1) = some next → value < -1 ∧ last < next := by
  constructor
  · rintro ⟨readable, replaced⟩
    unfold pythonText at replaced
    dsimp only at replaced
    exact ⟨readable, replaced⟩
  · rintro ⟨readable, replaced⟩
    refine ⟨readable, ?_⟩
    unfold pythonText
    dsimp only
    exact replaced

theorem bumpFits_of_short {version : String} (short : (chunks version).length < 3)
    (valid : validVersion (pythonText classes) version = true) :
    BumpFits (pythonText classes) version ↔ Readable (pythonText classes) version := by
  apply bumpFits_of_appends (List.append_ne_nil_of_right_ne_nil _ (List.cons_ne_nil _ _)) _
    (bump_of_short short) valid
  intro chunk member
  rcases List.mem_append.mp member with zero | one
  · cases List.eq_of_mem_replicate zero
    exact ⟨0, by decide⟩
  · cases List.mem_singleton.mp one
    exact ⟨1, by decide⟩

/-- A valid version fits together with its bump exactly if it is readable and its last chunk,
where that is replaced, is a text of digits or goes before the next integer. -/
theorem bumpFits_iff (classes : CharacterClasses) (version : String)
    (valid : validVersion (pythonText classes) version = true) :
    BumpFits (pythonText classes) version ↔ Bumpable (pythonText classes) version := by
  rw [bumpable_iff]
  by_cases short : (chunks version).length < 3
  · rw [bumpFits_of_short short valid, and_iff_left]
    exact fun _ _ _ long => absurd short (not_lt.mpr long)
  · have long := not_lt.mp short
    rcases List.eq_nil_or_concat (chunks version) with none | ⟨front, last, isChunks⟩
    · exact absurd none (Text.split_ne_nil '.' version)
    rw [List.concat_eq_append] at isChunks
    have isLast : (chunks version).getLast? = some last := by
      rw [isChunks]
      exact List.getLast?_concat
    have bumped := @bump_of_long classes version front last isChunks long
    cases replaced : (classes.readInt last).bind fun value => showInt (value + 1) with
    | none =>
        rw [replaced, Option.elim_none] at bumped
        have one : ∀ chunk ∈ ["1"], ∃ value, showInt value = some chunk := fun chunk member =>
          ⟨1, by cases List.mem_singleton.mp member; decide⟩
        rw [bumpFits_of_appends (List.cons_ne_nil _ _) one bumped valid, and_iff_left]
        intro last' value next _ isLast' _ reads shows
        cases isLast.symm.trans isLast'
        rw [reads, Option.bind_some, shows] at replaced
        cases replaced
    | some next =>
        rw [replaced, Option.elim_some] at bumped
        rcases Option.bind_eq_some_iff.mp replaced with ⟨value, reads, shows⟩
        rw [bumpFits_of_replaces isChunks reads shows bumped valid]
        refine and_congr_right fun _ => ?_
        constructor
        · intro behind last' value' next' _ isLast' letters reads' shows'
          cases isLast.symm.trans isLast'
          cases reads.symm.trans reads'
          cases shows.symm.trans shows'
          exact behind letters
        · intro each letters
          exact each last value next long isLast letters reads shows

theorem bumpFits_iff_ten : BumpFits (pythonText latinClasses) "1.0.10" ↔
    Bumpable (pythonText latinClasses) "1.0.10" :=
  bumpFits_iff latinClasses "1.0.10" (by decide +kernel)

/-- A valid version may have no key; and "1_0" is read as a number by a bump, while its own key
is that of a text, which goes behind all numbers. -/
theorem bump_goes_back :
    (validVersion (pythonText latinClasses) "1.0.²" = true ∧
        versionKey (pythonText latinClasses) "1.0.²" = none) ∧
      validVersion (pythonText latinClasses) "1.0.1_0" = true ∧
        bump (pythonText latinClasses) "1.0.1_0" = "1.0.11" ∧
          ¬ BumpFits (pythonText latinClasses) "1.0.1_0" := by
  have bumped : bump (pythonText latinClasses) "1.0.1_0" = "1.0.11" := by decide +kernel
  refine ⟨⟨by decide +kernel, by decide +kernel⟩, by decide +kernel, bumped, fun fits => ?_⟩
  have isKey : versionKey (pythonText latinClasses) "1.0.1_0" =
      some [toLex (0, toLex (1, "")), toLex (0, toLex (0, "")), toLex (1, toLex (0, "1_0"))] := by
    decide +kernel
  have isNext : versionKey (pythonText latinClasses) "1.0.11" =
      some [toLex (0, toLex (1, "")), toLex (0, toLex (0, "")), toLex (0, toLex (11, ""))] := by
    decide +kernel
  rcases fits.greater with ⟨key, next, same, same', less⟩
  rw [bumped] at same'
  cases isKey.symm.trans same
  cases isNext.symm.trans same'
  revert less
  decide +kernel

end Python

end Raphael.Skills
