import Mathlib.Tactic.IntervalCases
import Raphael.Core.JsonDecoder

/-! # What is written is read back

A value that was written with `json.dumps` is what `json.loads` reads. -/

namespace Raphael.Core.JsonDecoder

/-! ## Numbers -/

/-- No number goes on with this text. -/
def Stops (rest : List Char) : Prop := ∀ character ∈ rest.head?, isNumeral character = false

theorem stops_nil : Stops [] := nofun

theorem stops_cons {character : Char} {rest : List Char} (stop : isNumeral character = false) :
    Stops (character :: rest) := by
  intro other same
  cases same
  exact stop

theorem Stops.ne {rest : List Char} (stops : Stops rest) {character : Char}
    (numeral : isNumeral character) (tail : List Char) : rest ≠ character :: tail := by
  rintro rfl
  rw [stops character rfl] at numeral
  cases numeral

theorem Stops.takeWhile {rest : List Char} (stops : Stops rest) :
    rest.takeWhile Char.isDigit = [] := by
  cases rest with
  | nil => rfl
  | cons character tail =>
      have stop := stops character rfl
      rw [isNumeral, Bool.or_eq_false_iff] at stop
      rw [List.takeWhile_cons_of_neg (by simp [stop.1])]

theorem Stops.dropWhile {rest : List Char} (stops : Stops rest) :
    rest.dropWhile Char.isDigit = rest := by
  have whole := @List.takeWhile_append_dropWhile _ Char.isDigit rest
  rw [stops.takeWhile, List.nil_append] at whole
  exact whole

theorem takeWhile_stops (text : List Char) {rest : List Char} (stops : Stops rest) :
    (text ++ rest).takeWhile Char.isDigit = text.takeWhile Char.isDigit := by
  rw [List.takeWhile_append]
  split
  · next all =>
      rw [stops.takeWhile, List.append_nil]
      exact ((List.takeWhile_prefix Char.isDigit).eq_of_length all).symm
  · rfl

theorem dropWhile_stops (text : List Char) {rest : List Char} (stops : Stops rest) :
    (text ++ rest).dropWhile Char.isDigit = text.dropWhile Char.isDigit ++ rest := by
  rw [List.dropWhile_append]
  split
  · next all =>
      rw [List.isEmpty_iff.mp all, stops.dropWhile, List.nil_append]
  · rfl

/-- A scanner does not look beyond the end of the number. -/
def Stable (scan : List Char → List Char × List Char) : Prop :=
  ∀ text rest, Stops rest → scan (text ++ rest) = ((scan text).1, (scan text).2 ++ rest)

theorem scanSign_stable : Stable scanSign := by
  intro text rest stops
  cases text with
  | nil =>
      rw [List.nil_append, scanSign]
      · rfl
      · exact fun tail => stops.ne rfl tail
  | cons character more =>
      by_cases sign : character = '-'
      · subst sign
        rfl
      · rw [List.cons_append, scanSign, scanSign]
        · rfl
        · rintro tail ⟨⟩
          exact sign rfl
        · rintro tail ⟨⟩
          exact sign rfl

theorem scanExponentSign_stable : Stable scanExponentSign := by
  intro text rest stops
  cases text with
  | nil =>
      rw [List.nil_append, scanExponentSign]
      · rfl
      · exact fun tail => stops.ne rfl tail
      · exact fun tail => stops.ne rfl tail
  | cons character more =>
      by_cases minus : character = '-'
      · subst minus
        rfl
      · by_cases plus : character = '+'
        · subst plus
          rfl
        · rw [List.cons_append, scanExponentSign, scanExponentSign]
          · rfl
          all_goals
            rintro tail ⟨⟩
            contradiction

theorem scanFraction_stable : Stable scanFraction := by
  intro text rest stops
  cases text with
  | nil =>
      rw [List.nil_append, scanFraction]
      · rfl
      · exact fun tail => stops.ne rfl tail
  | cons character more =>
      by_cases point : character = '.'
      · subst point
        rw [List.cons_append, scanFraction, scanFraction, takeWhile_stops more stops,
          dropWhile_stops more stops]
        split <;> rfl
      · rw [List.cons_append, scanFraction, scanFraction]
        · rfl
        all_goals
          rintro tail ⟨⟩
          contradiction

theorem scanExponent_stable : Stable scanExponent := by
  intro text rest stops
  cases text with
  | nil =>
      cases rest with
      | nil => rfl
      | cons mark tail =>
          have stop := stops mark rfl
          have noMark : ¬ (mark = 'e' ∨ mark = 'E') := by
            rintro (rfl | rfl) <;> cases stop
          have nothing : scanExponent (mark :: tail) = ([], mark :: tail) := by
            rw [scanExponent, if_neg noMark]
          exact nothing
  | cons mark more =>
      rw [List.cons_append, scanExponent, scanExponent]
      split
      · have signed := scanExponentSign_stable more rest stops
        simp only [signed, takeWhile_stops _ stops, dropWhile_stops _ stops]
        split <;> rfl
      · rfl

theorem scanWhole_stable {text rest whole behind : List Char} (stops : Stops rest)
    (scanned : scanWhole text = some (whole, behind)) :
    scanWhole (text ++ rest) = some (whole, behind ++ rest) := by
  unfold scanWhole at scanned
  split at scanned
  · cases scanned
    rfl
  · next digit more noZero =>
      split at scanned
      · next isDigit =>
          cases scanned
          rw [List.cons_append, scanWhole, if_pos isDigit, takeWhile_stops more stops,
            dropWhile_stops more stops]
          exact noZero
      · cases scanned
  · cases scanned

/-- A number is scanned whatever it stops at. -/
theorem scanNumber_stable {numerals : NumberReader} {text rest behind : List Char} {value : Json}
    (stops : Stops rest) (scanned : scanNumber numerals text = some (value, behind)) :
    scanNumber numerals (text ++ rest) = some (value, behind ++ rest) := by
  simp only [scanNumber, Option.bind_eq_some_iff] at scanned
  rcases scanned with ⟨⟨whole, behindWhole⟩, isWhole, found⟩
  have stable : scanWhole ((scanSign text).2 ++ rest) = some (whole, behindWhole ++ rest) :=
    scanWhole_stable stops isWhole
  simp only [scanNumber, scanSign_stable text rest stops, stable, Option.bind_some,
    scanFraction_stable _ rest stops, scanExponent_stable _ rest stops]
  split at found
  · next integral =>
      rw [if_pos integral]
      split at found
      · cases found
      · next short =>
          cases found
          rw [if_neg short]
  · next fractional =>
      cases found
      rw [if_neg fractional]

/-! Integers. -/

/-- The decimals of a positive number do not begin with a zero. -/
theorem head_toDigits (number : Nat) (positive : 0 < number) :
    (Nat.toDigits 10 number).head? ≠ some '0' := by
  induction number using Nat.strong_induction_on with
  | _ number induction =>
      by_cases small : number < 10
      · rw [Nat.toDigits_of_lt_base small]
        interval_cases number <;> decide
      · have shorter : number / 10 < number := Nat.div_lt_self positive (by decide)
        have more : 0 < number / 10 := Nat.div_pos (by omega) (by decide)
        rw [Nat.toDigits_of_base_le (by decide) (by omega),
          List.head?_append_of_ne_nil _ Nat.toDigits_ne_nil]
        exact induction (number / 10) shorter more

theorem scanWhole_toDigits (number : Nat) :
    scanWhole (Nat.toDigits 10 number) = some (Nat.toDigits 10 number, []) := by
  cases number with
  | zero => rfl
  | succ number =>
      have first := head_toDigits (number + 1) (Nat.succ_pos number)
      have isDigit : ∀ digit ∈ Nat.toDigits 10 (number + 1), digit.isDigit := fun _ member =>
        Text.isDigit_of_mem_decimals member
      cases shape : Nat.toDigits 10 (number + 1) with
      | nil => exact absurd shape Nat.toDigits_ne_nil
      | cons digit more =>
          rw [shape] at first isDigit
          have later : ∀ other ∈ more, other.isDigit := fun other member =>
            isDigit other (List.mem_cons_of_mem digit member)
          rw [scanWhole, if_pos (isDigit digit List.mem_cons_self),
            List.takeWhile_eq_self_iff.mpr later, List.dropWhile_eq_nil_iff.mpr later]
          rintro rfl
          exact first rfl

theorem scanSign_toDigits (number : Nat) :
    scanSign (Nat.toDigits 10 number) = ([], Nat.toDigits 10 number) := by
  unfold scanSign
  split
  · next rest shape =>
      have member : '-' ∈ Nat.toDigits 10 number := by
        rw [shape]
        exact List.mem_cons_self
      cases Text.isDigit_of_mem_decimals member
  · rfl

theorem scanNumber_int {numerals : NumberReader} {value : Int}
    (short : (toString value).toList.length ≤ numerals.maxDigits) :
    scanNumber numerals (toString value).toList = some (.int value, []) := by
  have digits := scanWhole_toDigits value.natAbs
  have length : (Nat.toDigits 10 value.natAbs).length ≤ (toString value).toList.length := by
    rw [Text.toList_int, List.length_append]
    omega
  have signed : scanSign (toString value).toList =
      (if value < 0 then ['-'] else [], Nat.toDigits 10 value.natAbs) := by
    rw [Text.toList_int]
    split
    · rfl
    · exact scanSign_toDigits value.natAbs
  simp only [scanNumber, signed, digits, Option.bind_some]
  rw [if_pos ⟨rfl, rfl⟩, if_neg (by omega), signedInteger, Nat.ofDigitChars_ten_toDigits]
  by_cases negative : value < 0
  · have same : -(value.natAbs : Int) = value := by omega
    rw [if_pos negative, if_neg (by decide), same]
    rfl
  · have same : (value.natAbs : Int) = value := by omega
    simp only [negative, if_false, if_true, same]
    rfl

/-! ## Strings -/

theorem hexValue_hexDigit {digit : Nat} (small : digit < 16) :
    hexValue (Text.hexDigit digit) = some digit := by
  interval_cases digit <;> rfl

theorem toList_unicodeEscape (unit : Nat) :
    (Json.unicodeEscape unit).toList = ['\\', 'u', Text.hexDigit (unit / 4096 % 16),
      Text.hexDigit (unit / 256 % 16), Text.hexDigit (unit / 16 % 16),
      Text.hexDigit (unit % 16)] := by
  simp [Json.unicodeEscape, Text.hex, List.range_succ]

/-- A written unit is read. -/
theorem scanString_unicode {unit : Nat} (small : unit < 65536) (rest : List Char) :
    scanString ((Json.unicodeEscape unit).toList ++ rest) =
      (scanString rest).map fun scanned => (unit :: scanned.1, scanned.2) := by
  have digit (number : Nat) : hexValue (Text.hexDigit (number % 16)) = some (number % 16) :=
    hexValue_hexDigit (Nat.mod_lt number (by decide))
  have value : ((unit / 4096 % 16 * 16 + unit / 256 % 16) * 16 + unit / 16 % 16) * 16 +
      unit % 16 = unit := by
    omega
  rw [toList_unicodeEscape]
  simp only [List.cons_append, List.nil_append, scanString, hexUnit, digit, Option.bind_eq_bind,
    Option.bind_some, value]

/-- The code units of a character. -/
def unitsOf (character : Char) : List Nat :=
  if character.toNat < 65536 then [character.toNat]
  else [55296 + (character.toNat - 65536) / 1024, 56320 + (character.toNat - 65536) % 1024]

theorem toNat_lt (character : Char) :
    character.toNat < 55296 ∨ 57343 < character.toNat ∧ character.toNat < 1114112 :=
  character.valid

theorem scanString_plain {character : Char} (visible : 32 ≤ character.toNat)
    (noQuote : character ≠ '"') (noEscape : character ≠ '\\') (rest : List Char) :
    scanString (character :: rest) =
      (scanString rest).map fun scanned => (character.toNat :: scanned.1, scanned.2) := by
  have isPlain : ¬ (character.toNat < 32 ∨ character = '\\') := by
    rw [not_or]
    exact ⟨Nat.not_lt.mpr visible, noEscape⟩
  rw [scanString, if_neg isPlain]
  · exact noQuote
  · intro _ _ _ _ _ same
    exact absurd same noEscape
  · intro _ _ same
    exact absurd same noEscape

/-- What is written for a character is read as its units. -/
private def ReadAs (character : Char) (rest : List Char) (written : String) : Prop :=
  scanString (written.toList ++ rest) =
    (scanString rest).map fun scanned => (unitsOf character ++ scanned.1, scanned.2)

private theorem ReadAs.ite {character : Char} {rest : List Char} {condition : Prop}
    [Decidable condition] {written other : String}
    (holds : condition → ReadAs character rest written)
    (fails : ¬ condition → ReadAs character rest other) :
    ReadAs character rest (if condition then written else other) := by
  split
  · next true => exact holds true
  · next false => exact fails false

/-- A written character is read as its units. -/
theorem scanString_escape (character : Char) (rest : List Char) :
    scanString ((Json.escapeCharacter character).toList ++ rest) =
      (scanString rest).map fun scanned => (unitsOf character ++ scanned.1, scanned.2) := by
  have bounds := toNat_lt character
  have single (small : character.toNat < 65536) : unitsOf character = [character.toNat] :=
    if_pos small
  have shortEscape {escaped : Char} {written : String}
      (reads : ReadAs escaped rest written) (same : (character == escaped) = true) :
      ReadAs character rest written := by
    rwa [beq_iff_eq.mp same]
  change ReadAs character rest (Json.escapeCharacter character)
  unfold Json.escapeCharacter
  refine .ite (shortEscape rfl) fun noQuote => .ite (shortEscape rfl) fun noEscape =>
    .ite (shortEscape rfl) fun _ => .ite (shortEscape rfl) fun _ =>
    .ite (shortEscape rfl) fun _ => .ite (fun code => ?backspace) fun _ =>
    .ite (fun code => ?formFeed) fun _ => .ite (fun visible => ?visible) fun _ =>
    .ite (fun small => ?small) fun large => ?large
  case backspace =>
    rw [beq_iff_eq] at code
    unfold ReadAs
    rw [single (by omega), code]
    rfl
  case formFeed =>
    rw [beq_iff_eq] at code
    unfold ReadAs
    rw [single (by omega), code]
    rfl
  case visible =>
    rw [Bool.and_eq_true, decide_eq_true_eq, decide_eq_true_eq] at visible
    unfold ReadAs
    rw [single (by omega), Char.toString_eq_singleton, String.toList_singleton]
    exact scanString_plain visible.1 (fun same => noQuote (beq_iff_eq.mpr same))
      (fun same => noEscape (beq_iff_eq.mpr same)) rest
  case small =>
    unfold ReadAs
    rw [single small]
    exact scanString_unicode small rest
  case large =>
    have units : unitsOf character = [55296 + (character.toNat - 65536) / 1024,
        56320 + (character.toNat - 65536) % 1024] := if_neg large
    unfold ReadAs
    rw [String.toList_append, List.append_assoc, scanString_unicode (by omega),
      scanString_unicode (by omega), units, Option.map_map]
    rfl

/-- A written text is read up to its closing quote. -/
theorem scanString_quote (text : List Char) (rest : List Char) :
    scanString ((text.map Json.escapeCharacter).flatMap String.toList ++ '"' :: rest) =
      some (text.flatMap unitsOf, rest) := by
  induction text with
  | nil => rfl
  | cons character more induction =>
      rw [List.map_cons, List.flatMap_cons, List.append_assoc, scanString_escape, induction]
      rfl

theorem characters_scalar {unit : Nat} (notHigh : isHigh unit = false)
    (notLow : isLow unit = false) (rest : List Nat) :
    characters (unit :: rest) = Char.ofNat unit :: characters rest := by
  cases rest with
  | nil => simp [characters, notHigh, notLow]
  | cons next rest => simp [characters, notHigh, notLow]

theorem characters_pair {high low : Nat} (isHigh : isHigh high) (isLow : isLow low)
    (rest : List Nat) :
    characters (high :: low :: rest) =
      Char.ofNat (65536 + (high - 55296) * 1024 + (low - 56320)) :: characters rest := by
  simp [characters, isHigh, isLow]

/-- The units of a text are its characters. -/
theorem characters_units (text : List Char) : characters (text.flatMap unitsOf) = text := by
  induction text with
  | nil => rfl
  | cons character more induction =>
      have bounds := toNat_lt character
      rw [List.flatMap_cons, unitsOf]
      split
      · have scalar : isHigh character.toNat = false ∧ isLow character.toNat = false := by
          simp only [isHigh, isLow, Bool.and_eq_false_iff, decide_eq_false_iff_not]
          omega
        rw [List.singleton_append, characters_scalar scalar.1 scalar.2, induction,
          Char.ofNat_toNat]
      · have surrogates : isHigh (55296 + (character.toNat - 65536) / 1024) ∧
            isLow (56320 + (character.toNat - 65536) % 1024) := by
          simp only [isHigh, isLow, Bool.and_eq_true, decide_eq_true_eq]
          omega
        have code : 65536 + (55296 + (character.toNat - 65536) / 1024 - 55296) * 1024 +
            (56320 + (character.toNat - 65536) % 1024 - 56320) = character.toNat := by
          omega
        rw [List.cons_append, List.singleton_append,
          characters_pair surrogates.1 surrogates.2, induction, code, Char.ofNat_toNat]

theorem toList_quote (text : String) :
    (Json.quote text).toList =
      '"' :: ((text.toList.map Json.escapeCharacter).flatMap String.toList ++ ['"']) := by
  simp [Json.quote, String.toList_join, List.flatMap]

/-- A written string is scanned as it was. -/
theorem scanString_written (text : String) (rest : List Char) :
    ∃ units, scanString ((Json.quote text).toList.tail ++ rest) = some (units, rest) ∧
      String.ofList (characters units) = text := by
  refine ⟨text.toList.flatMap unitsOf, ?_, ?_⟩
  · rw [toList_quote, List.tail_cons, List.append_assoc]
    exact scanString_quote text.toList rest
  · rw [characters_units, String.ofList_toList]

/-- No string is written as the beginning of what another one is written as. -/
theorem quote_append_inj {left right : String} {leftRest rightRest : List Char}
    (same : (Json.quote left).toList ++ leftRest = (Json.quote right).toList ++ rightRest) :
    left = right ∧ leftRest = rightRest := by
  rcases scanString_written left leftRest with ⟨units, scanned, isLeft⟩
  rcases scanString_written right rightRest with ⟨others, scanned', isRight⟩
  rw [toList_quote, toList_quote, List.cons_append, List.cons_append, List.cons.injEq] at same
  rw [toList_quote, List.tail_cons, same.2] at scanned
  rw [toList_quote, List.tail_cons] at scanned'
  cases scanned.symm.trans scanned'
  exact ⟨isLeft.symm.trans isRight, rfl⟩

/-! ## Values -/

mutual
/-- A value as it is written: a float is the `repr` of what it reads as, and an object has each
key once. -/
def Written (floatText : String → String) : Json → Prop
  | .float text => scanNumber ⟨floatText, 0⟩ text.toList = some (.float text, [])
  | .arr items => WrittenItems floatText items
  | .obj fields => (fields.map Prod.fst).Nodup ∧ WrittenFields floatText fields
  | .null => True
  | .bool _ => True
  | .int _ => True
  | .str _ => True

def WrittenItems (floatText : String → String) : List Json → Prop
  | [] => True
  | item :: rest => Written floatText item ∧ WrittenItems floatText rest

def WrittenFields (floatText : String → String) : List (String × Json) → Prop
  | [] => True
  | (_, value) :: rest => Written floatText value ∧ WrittenFields floatText rest
end

/-- The digits that an integer may have do not matter to a float. -/
theorem scanNumber_float {floatText : String → String} {maxDigits other : Nat}
    {text rest : List Char} {repr : String}
    (scanned : scanNumber ⟨floatText, maxDigits⟩ text = some (.float repr, rest)) :
    scanNumber ⟨floatText, other⟩ text = some (.float repr, rest) := by
  simp only [scanNumber, Option.bind_eq_some_iff] at scanned ⊢
  rcases scanned with ⟨whole, isWhole, found⟩
  refine ⟨whole, isWhole, ?_⟩
  split at found
  · split at found <;> cases found
  · next fractional =>
      rw [if_neg fractional]
      exact found

/-- Separators: a comma and a colon, with gaps behind them. -/
structure Separators where
  item : String
  key : String
  itemGap : List Char
  keyGap : List Char
  isItem : item.toList = ',' :: itemGap
  isKey : key.toList = ':' :: keyGap
  itemBlank : itemGap.all isGap
  keyBlank : keyGap.all isGap

variable {numerals : NumberReader} {separators : Separators}

/-- The characters of a written value. -/
abbrev text (separators : Separators) (value : Json) : List Char :=
  (Json.dumps separators.item separators.key value).toList

theorem skipGap_blank {gap rest : List Char} (blank : gap.all isGap) :
    skipGap (gap ++ rest) = skipGap rest :=
  List.dropWhile_append_of_pos (by simpa using blank)

theorem skipGap_cons {character : Char} {rest : List Char} (noGap : isGap character = false) :
    skipGap (character :: rest) = character :: rest :=
  List.dropWhile_cons_of_neg (by simp [noGap])

theorem expect_next {character : Char} (rest : List Char) (noGap : isGap character = false) :
    expect character (skipGap (character :: rest)) = some rest := by
  rw [skipGap_cons noGap]
  exact if_pos rfl

theorem expect_other {character next : Char} (rest : List Char) (noGap : isGap next = false)
    (differs : next ≠ character) : expect character (skipGap (next :: rest)) = none := by
  rw [skipGap_cons noGap]
  exact if_neg differs

/-- What begins a value: no gap, and nothing that closes. -/
def Begins (text : List Char) : Prop :=
  ∃ first rest, text = first :: rest ∧ isGap first = false ∧ first ≠ ']' ∧ first ≠ '}'

theorem Begins.append {text : List Char} (begins : Begins text) (rest : List Char) :
    Begins (text ++ rest) := by
  rcases begins with ⟨first, more, rfl, starts⟩
  exact ⟨first, more ++ rest, rfl, starts⟩

theorem Begins.skipGap {text : List Char} (begins : Begins text) :
    JsonDecoder.skipGap text = text := by
  rcases begins with ⟨first, more, rfl, noGap, -⟩
  exact skipGap_cons noGap

theorem Begins.skipGap_behind {gap text : List Char} (begins : Begins text)
    (blank : gap.all isGap) : JsonDecoder.skipGap (gap ++ text) = text :=
  (skipGap_blank blank).trans begins.skipGap

theorem Begins.expect {text : List Char} (begins : Begins text) {closing : Char}
    (closes : closing = ']' ∨ closing = '}') : JsonDecoder.expect closing text = none := by
  rcases begins with ⟨first, more, rfl, -, noBracket, noBrace⟩
  rcases closes with rfl | rfl
  · exact if_neg noBracket
  · exact if_neg noBrace

/-- A number begins a value. -/
theorem begins_numeral {first : Char} (numeral : isNumeral first) (rest : List Char) :
    Begins (first :: rest) := by
  refine ⟨first, rest, rfl, ?_, ?_, ?_⟩
  · by_contra gap
    simp only [isGap, Bool.not_eq_false, Bool.or_eq_true, decide_eq_true_eq] at gap
    rcases gap with ((rfl | rfl) | rfl) | rfl <;> cases numeral
  · rintro rfl
    cases numeral
  · rintro rfl
    cases numeral

theorem begins_scanned {text rest : List Char} {value : Json}
    (scanned : scanNumber numerals text = some (value, rest)) : Begins text := by
  rcases scanNumber_takes scanned with ⟨taken, rfl, nonempty, numeral⟩
  cases taken with
  | nil => exact absurd rfl nonempty
  | cons first more => exact begins_numeral (numeral first List.mem_cons_self) _

theorem begins_digits (number : Nat) : Begins (Nat.toDigits 10 number) := by
  cases shape : Nat.toDigits 10 number with
  | nil => exact absurd shape Nat.toDigits_ne_nil
  | cons digit more =>
      have member : digit ∈ Nat.toDigits 10 number := by
        rw [shape]
        exact List.mem_cons_self
      apply begins_numeral
      rw [isNumeral, Text.isDigit_of_mem_decimals member, Bool.true_or]

theorem begins_text {value : Json} (written : Written numerals.floatText value) :
    Begins (text separators value) := by
  cases value with
  | null =>
      rw [text, Json.dumps]
      exact ⟨'n', _, rfl, by decide, by decide, by decide⟩
  | bool value =>
      cases value with
      | true =>
          rw [text, Json.dumps]
          exact ⟨'t', _, rfl, by decide, by decide, by decide⟩
      | false =>
          rw [text, Json.dumps]
          exact ⟨'f', _, rfl, by decide, by decide, by decide⟩
  | int value =>
      rw [text, Json.dumps, Text.toList_int]
      split
      · exact begins_numeral rfl _
      · exact begins_digits value.natAbs
  | float repr =>
      rw [Written] at written
      rw [text, Json.dumps]
      exact begins_scanned written
  | str value =>
      rw [text, Json.dumps, toList_quote]
      exact ⟨'"', _, rfl, by decide, by decide, by decide⟩
  | arr items =>
      rw [text, Json.dumps, String.toList_append, String.toList_append]
      exact ⟨'[', _, rfl, by decide, by decide, by decide⟩
  | obj fields =>
      rw [text, Json.dumps, String.toList_append, String.toList_append]
      exact ⟨'{', _, rfl, by decide, by decide, by decide⟩

/-! One value. -/

/-- A written value is scanned, in front of what no number goes on with. -/
def Reads (numerals : NumberReader) (separators : Separators) (value : Json) : Prop :=
  ∀ fuel rest, Stops rest → 2 * (text separators value ++ rest).length < fuel →
    (text separators value ++ rest).length ≤ numerals.maxDigits →
    scanValue numerals fuel (text separators value ++ rest) = some (value, rest)

theorem words_no_number (rest : List Char) :
    ∀ word ∈ words, scanNumber numerals (word.1 ++ rest) = none := by
  simp only [words, List.forall_mem_cons, List.not_mem_nil, false_implies, implies_true,
    and_true]
  exact ⟨rfl, rfl, rfl, rfl, rfl, rfl⟩

/-- Where a number stands, no word does. -/
theorem scanAtom_of_number {text : List Char} {found : Json × List Char}
    (scanned : scanNumber numerals text = some found) :
    scanAtom numerals text = some found := by
  have noWord : (words.findSome? fun word =>
      (text.dropPrefix? word.1).map fun rest => (word.2, rest)) = none := by
    rw [List.findSome?_eq_none_iff]
    intro word member
    rw [Option.map_eq_none_iff, Option.eq_none_iff_forall_not_mem]
    intro rest dropped
    rcases List.dropPrefix?_eq_some_iff.mp dropped with ⟨letters, split, equal⟩
    cases eq_of_beq equal
    rw [split, words_no_number rest word member] at scanned
    cases scanned
  rw [scanAtom, noWord, Option.none_or]
  exact scanned

/-- A number is no string and no container. -/
theorem scanValue_of_number {text : List Char} {found : Json × List Char} {fuel : Nat}
    (enough : 0 < fuel) (scanned : scanNumber numerals text = some found) :
    scanValue numerals fuel text = some found := by
  rcases scanNumber_takes scanned with ⟨taken, split, nonempty, numeral⟩
  cases fuel with
  | zero => cases enough
  | succ fuel =>
      cases taken with
      | nil => exact absurd rfl nonempty
      | cons first more =>
          have isFirst := numeral first List.mem_cons_self
          rw [List.cons_append] at split
          have differs {other : Char} (stop : isNumeral other = false) : first ≠ other := by
            rintro rfl
            rw [stop] at isFirst
            cases isFirst
          rw [split] at scanned ⊢
          rw [scanValue, if_neg (differs rfl), if_neg (differs rfl), if_neg (differs rfl)]
          exact scanAtom_of_number scanned

theorem reads_int (value : Int) : Reads numerals separators (.int value) := by
  intro fuel rest stops enough short
  rw [text, Json.dumps] at enough short ⊢
  rw [List.length_append] at short
  apply scanValue_of_number (by omega)
  exact scanNumber_stable stops (scanNumber_int (by omega))

theorem reads_float {repr : String} (written : Written numerals.floatText (.float repr)) :
    Reads numerals separators (.float repr) := by
  intro fuel rest stops enough _
  rw [Written] at written
  rw [text, Json.dumps] at enough ⊢
  apply scanValue_of_number (by omega)
  exact scanNumber_stable stops (scanNumber_float written)

/-- Each word is read in front of any text. -/
theorem scanAtom_word (rest : List Char) :
    ∀ word ∈ words, scanAtom numerals (word.1 ++ rest) = some (word.2, rest) := by
  simp [words, scanAtom, List.dropPrefix?]

theorem words_begin : ∀ word ∈ words, ∃ first more, word.1 = first :: more ∧
    first ∉ ['"', '{', '['] := by
  simp [words]

theorem reads_word {word : List Char × Json} (member : word ∈ words)
    (letters : text separators word.2 = word.1) : Reads numerals separators word.2 := by
  intro fuel rest _ enough _
  rcases words_begin word member with ⟨first, more, split, plain⟩
  have scanned := @scanAtom_word numerals rest word member
  simp only [List.mem_cons, List.not_mem_nil, or_false, not_or] at plain
  rw [letters] at enough ⊢
  rw [split, List.cons_append] at scanned ⊢
  cases fuel with
  | zero => cases enough
  | succ fuel =>
      rw [scanValue, if_neg plain.1, if_neg plain.2.1, if_neg plain.2.2]
      exact scanned

theorem reads_str (value : String) : Reads numerals separators (.str value) := by
  intro fuel rest _ enough _
  cases fuel with
  | zero => cases enough
  | succ fuel =>
      rcases scanString_written value rest with ⟨units, scanned, same⟩
      rw [text, Json.dumps, toList_quote] at *
      rw [List.cons_append, scanValue, if_pos rfl]
      rw [List.tail_cons] at scanned
      rw [scanned, Option.map_some]
      simp only [same]

/-! Arrays. -/

/-- The items of an array between its brackets. -/
abbrev itemsText (separators : Separators) (items : List Json) : List Char :=
  (Text.join separators.item (Json.dumpItems separators.item separators.key items)).toList

theorem itemsText_single (item : Json) : itemsText separators [item] = text separators item := by
  rw [itemsText, Json.dumpItems, Json.dumpItems, Text.join, String.intercalate_singleton]

theorem itemsText_cons (item next : Json) (more : List Json) :
    itemsText separators (item :: next :: more) =
      text separators item ++ ',' :: (separators.itemGap ++
        itemsText separators (next :: more)) := by
  rw [itemsText, Json.dumpItems, Json.dumpItems, Text.join, String.intercalate_cons_cons,
    String.toList_append, String.toList_append, separators.isItem, List.append_assoc,
    List.cons_append, ← Text.join, ← Json.dumpItems]

/-- Written items are scanned up to the closing bracket. -/
def ReadsItems (numerals : NumberReader) (separators : Separators) (items : List Json) : Prop :=
  ∀ fuel rest, 2 * (itemsText separators items ++ ']' :: rest).length + 1 < fuel →
    (itemsText separators items ++ ']' :: rest).length ≤ numerals.maxDigits →
    scanItems numerals fuel (itemsText separators items ++ ']' :: rest) = some (items, rest)

theorem readsItems_single {item : Json} (reads : Reads numerals separators item) :
    ReadsItems numerals separators [item] := by
  intro fuel rest enough short
  rw [itemsText_single] at enough short ⊢
  cases fuel with
  | zero => omega
  | succ fuel =>
      have scanned := reads fuel (']' :: rest) (stops_cons rfl) (by omega) short
      rw [scanItems, scanned]
      simp only [Option.bind_eq_bind, Option.bind_some, expect_next rest (rfl : isGap ']' = false)]

theorem begins_items {item : Json} {more : List Json} (written : Written numerals.floatText item) :
    Begins (itemsText separators (item :: more)) := by
  cases more with
  | nil =>
      rw [itemsText_single]
      exact begins_text written
  | cons next more =>
      rw [itemsText_cons]
      exact (begins_text written).append _

theorem readsItems_cons {item next : Json} {more : List Json}
    (reads : Reads numerals separators item) (written : Written numerals.floatText next)
    (readsMore : ReadsItems numerals separators (next :: more)) :
    ReadsItems numerals separators (item :: next :: more) := by
  intro fuel rest enough short
  rw [itemsText_cons, List.append_assoc, List.cons_append, List.append_assoc] at enough short ⊢
  cases fuel with
  | zero => omega
  | succ fuel =>
      have scanned := reads fuel (',' :: (separators.itemGap ++
        (itemsText separators (next :: more) ++ ']' :: rest))) (stops_cons rfl) (by omega) short
      simp only [List.length_append, List.length_cons] at enough short
      have later := readsMore fuel rest
        (by simp only [List.length_append, List.length_cons]; omega)
        (by simp only [List.length_append, List.length_cons]; omega)
      have gap : skipGap (separators.itemGap ++
          (itemsText separators (next :: more) ++ ']' :: rest)) =
            itemsText separators (next :: more) ++ ']' :: rest :=
        ((begins_items written).append _).skipGap_behind separators.itemBlank
      rw [scanItems, scanned]
      simp only [Option.bind_eq_bind, Option.bind_some,
        expect_other _ (rfl : isGap ',' = false) (by decide : ',' ≠ ']'),
        expect_next _ (rfl : isGap ',' = false), gap, later]

theorem reads_arr {items : List Json} (writtenItems : WrittenItems numerals.floatText items)
    (readsItems : items ≠ [] → ReadsItems numerals separators items) :
    Reads numerals separators (.arr items) := by
  intro fuel rest _ enough short
  have shape : text separators (.arr items) ++ rest =
      '[' :: (itemsText separators items ++ ']' :: rest) := by
    rw [text, Json.dumps, String.toList_append, String.toList_append, List.append_assoc,
      List.append_assoc]
    rfl
  rw [shape] at enough short ⊢
  rw [List.length_cons] at enough short
  cases fuel with
  | zero => omega
  | succ fuel =>
      rw [scanValue, if_neg (by decide), if_neg (by decide), if_pos rfl]
      cases items with
      | nil =>
          rw [itemsText, Json.dumpItems, Text.join, String.intercalate_nil]
          simp only [String.toList_empty, List.nil_append,
            expect_next rest (rfl : isGap ']' = false)]
      | cons item more =>
          rw [WrittenItems] at writtenItems
          have begins := (@begins_items _ separators _ more writtenItems.1).append (']' :: rest)
          rw [begins.skipGap, begins.expect (.inl rfl)]
          rw [readsItems (List.cons_ne_nil item more) fuel rest (by omega) (by omega)]
          rfl

/-! Objects. -/

/-- A key, the separator and its value. -/
def fieldText (separators : Separators) (field : String × Json) : List Char :=
  (Json.quote field.1).toList ++ ':' :: (separators.keyGap ++ text separators field.2)

/-- The fields of an object between its braces. -/
abbrev fieldsText (separators : Separators) (fields : List (String × Json)) : List Char :=
  (Text.join separators.item (Json.dumpFields separators.item separators.key fields)).toList

theorem fieldsText_single (field : String × Json) :
    fieldsText separators [field] = fieldText separators field := by
  rw [fieldsText, Json.dumpFields, Json.dumpFields, Text.join, String.intercalate_singleton,
    String.toList_append, String.toList_append, separators.isKey, List.append_assoc]
  rfl

theorem fieldsText_cons (field next : String × Json) (more : List (String × Json)) :
    fieldsText separators (field :: next :: more) =
      fieldText separators field ++ ',' :: (separators.itemGap ++
        fieldsText separators (next :: more)) := by
  rw [fieldsText, Json.dumpFields, Json.dumpFields, Text.join, String.intercalate_cons_cons,
    String.toList_append, String.toList_append, String.toList_append, String.toList_append,
    separators.isItem, separators.isKey, ← Text.join, ← Json.dumpFields]
  simp only [fieldText, List.append_assoc, List.cons_append]

theorem fieldText_quote (field : String × Json) :
    ∃ more, fieldText separators field = '"' :: more := by
  rw [fieldText, toList_quote]
  exact ⟨_, rfl⟩

theorem begins_fields (field : String × Json) (more : List (String × Json)) :
    Begins (fieldsText separators (field :: more)) := by
  have quoted : Begins (fieldText separators field) := by
    rcases @fieldText_quote separators field with ⟨rest, same⟩
    rw [same]
    exact ⟨'"', rest, rfl, by decide, by decide, by decide⟩
  cases more with
  | nil =>
      rw [fieldsText_single]
      exact quoted
  | cons next more =>
      rw [fieldsText_cons]
      exact quoted.append _

/-- Written fields are scanned up to the closing brace. -/
def ReadsFields (numerals : NumberReader) (separators : Separators)
    (fields : List (String × Json)) : Prop :=
  ∀ fuel rest, 2 * (fieldsText separators fields ++ '}' :: rest).length < fuel →
    (fieldsText separators fields ++ '}' :: rest).length ≤ numerals.maxDigits →
    scanMembers numerals fuel (fieldsText separators fields ++ '}' :: rest) = some (fields, rest)

/-- A key and its value are scanned; what is behind them decides how it goes on. -/
theorem scanMembers_field {field : String × Json} (written : Written numerals.floatText field.2)
    (reads : Reads numerals separators field.2) {fuel : Nat} {rest : List Char}
    (stops : Stops rest) (enough : 2 * (fieldText separators field ++ rest).length < fuel + 1)
    (short : (fieldText separators field ++ rest).length ≤ numerals.maxDigits) :
    scanMembers numerals (fuel + 1) (fieldText separators field ++ rest) =
      match expect '}' (skipGap rest) with
      | some rest => some ([field], rest)
      | none => (expect ',' (skipGap rest)).bind fun text =>
          (scanMembers numerals fuel (skipGap text)).bind fun scanned =>
            some (field :: scanned.1, scanned.2) := by
  rcases scanString_written field.1 (':' :: (separators.keyGap ++
    text separators field.2) ++ rest) with ⟨units, scanned, same⟩
  have value := reads fuel rest stops
    (by
      simp only [fieldText, List.length_append, List.length_cons] at enough ⊢
      omega)
    (by
      simp only [fieldText, List.length_append, List.length_cons] at short ⊢
      omega)
  have gap : skipGap (separators.keyGap ++ (text separators field.2 ++ rest)) =
      text separators field.2 ++ rest :=
    ((begins_text written).append rest).skipGap_behind separators.keyBlank
  rw [toList_quote, List.tail_cons] at scanned
  have quoted : expect '"' (fieldText separators field ++ rest) =
      some ((field.1.toList.map Json.escapeCharacter).flatMap String.toList ++ ['"'] ++
        (':' :: (separators.keyGap ++ text separators field.2) ++ rest)) := by
    rw [expect_eq_some, fieldText, toList_quote]
    simp only [List.cons_append, List.append_assoc, List.nil_append]
  rw [scanMembers, quoted]
  simp only [Option.bind_eq_bind, Option.bind_some, scanned]
  simp only [same, List.cons_append, expect_next _ (rfl : isGap ':' = false), Option.bind_some,
    List.append_assoc, gap, value]
  all_goals rfl

theorem readsFields_single {field : String × Json} (written : Written numerals.floatText field.2)
    (reads : Reads numerals separators field.2) :
    ReadsFields numerals separators [field] := by
  intro fuel rest enough short
  rw [fieldsText_single] at enough short ⊢
  cases fuel with
  | zero => cases enough
  | succ fuel =>
      have stops : Stops ('}' :: rest) := @stops_cons '}' rest rfl
      rw [scanMembers_field written reads stops enough short]
      simp only [expect_next rest (rfl : isGap '}' = false)]

theorem readsFields_cons {field next : String × Json} {more : List (String × Json)}
    (written : Written numerals.floatText field.2) (reads : Reads numerals separators field.2)
    (readsMore : ReadsFields numerals separators (next :: more)) :
    ReadsFields numerals separators (field :: next :: more) := by
  intro fuel rest enough short
  rw [fieldsText_cons, List.append_assoc, List.cons_append, List.append_assoc] at enough short ⊢
  cases fuel with
  | zero => cases enough
  | succ fuel =>
      have stops : Stops (',' :: (separators.itemGap ++
        (fieldsText separators (next :: more) ++ '}' :: rest))) := @stops_cons ',' _ rfl
      rw [scanMembers_field written reads stops enough short]
      simp only [List.length_append, List.length_cons] at enough short
      have later := readsMore fuel rest
        (by simp only [List.length_append, List.length_cons]; omega)
        (by simp only [List.length_append, List.length_cons]; omega)
      have gap : skipGap (separators.itemGap ++
          (fieldsText separators (next :: more) ++ '}' :: rest)) =
            fieldsText separators (next :: more) ++ '}' :: rest :=
        ((begins_fields next more).append _).skipGap_behind separators.itemBlank
      simp only [Option.bind_some,
        expect_other _ (rfl : isGap ',' = false) (by decide : ',' ≠ '}'),
        expect_next _ (rfl : isGap ',' = false), gap, later]

/-- Fields with different keys are put behind each other. -/
theorem merge_distinct {base fields : List (String × Json)}
    (distinct : ((base ++ fields).map Prod.fst).Nodup) :
    Json.merge base fields = base ++ fields := by
  induction fields generalizing base with
  | nil => rw [List.append_nil]; rfl
  | cons field rest induction =>
      have absent : base.any (·.1 == field.1) = false := by
        rw [List.any_eq_false]
        intro other member same
        rw [List.map_append, List.map_cons, List.nodup_append] at distinct
        exact distinct.2.2 _ (List.mem_map_of_mem member) _ List.mem_cons_self
          (eq_of_beq same)
      have inserted : Json.insert base field.1 field.2 = base ++ [field] := by
        rw [Json.insert, absent]
        rfl
      rw [Json.merge, List.foldl_cons, inserted, ← Json.merge, induction]
      · rw [List.append_assoc]
        rfl
      · rw [List.append_assoc]
        exact distinct

theorem reads_obj {fields : List (String × Json)} (distinct : (fields.map Prod.fst).Nodup)
    (readsFields : fields ≠ [] → ReadsFields numerals separators fields) :
    Reads numerals separators (.obj fields) := by
  intro fuel rest _ enough short
  have shape : text separators (.obj fields) ++ rest =
      '{' :: (fieldsText separators fields ++ '}' :: rest) := by
    rw [text, Json.dumps, String.toList_append, String.toList_append, List.append_assoc,
      List.append_assoc]
    rfl
  rw [shape] at enough short ⊢
  rw [List.length_cons] at enough short
  cases fuel with
  | zero => omega
  | succ fuel =>
      rw [scanValue, if_neg (by decide), if_pos rfl]
      cases fields with
      | nil =>
          rw [fieldsText, Json.dumpFields, Text.join, String.intercalate_nil]
          simp only [String.toList_empty, List.nil_append,
            expect_next rest (rfl : isGap '}' = false)]
      | cons field more =>
          have begins := (@begins_fields separators field more).append ('}' :: rest)
          rw [begins.skipGap, begins.expect (.inr rfl)]
          rw [readsFields (List.cons_ne_nil field more) fuel rest (by omega) (by omega)]
          simp only [Option.map_some, @merge_distinct [] _ distinct, List.nil_append]

/-! All values. -/

mutual
theorem reads : ∀ value, Written numerals.floatText value → Reads numerals separators value
  | .null, _ => @reads_word _ _ (['n', 'u', 'l', 'l'], .null) (by simp [words])
      (by rw [text, Json.dumps]; rfl)
  | .bool true, _ => @reads_word _ _ (['t', 'r', 'u', 'e'], .bool true) (by simp [words])
      (by rw [text, Json.dumps]; rfl)
  | .bool false, _ => @reads_word _ _ (['f', 'a', 'l', 's', 'e'], .bool false)
      (by simp [words]) (by rw [text, Json.dumps]; rfl)
  | .int value, _ => reads_int value
  | .float _, written => reads_float written
  | .str value, _ => reads_str value
  | .arr items, written => by
      rw [Written] at written
      exact reads_arr written (readsItems items written)
  | .obj fields, written => by
      rw [Written] at written
      exact reads_obj written.1 (readsFields fields written.2)

theorem readsItems : ∀ items, WrittenItems numerals.floatText items → items ≠ [] →
    ReadsItems numerals separators items
  | [], _, nonempty => absurd rfl nonempty
  | [item], written, _ => by
      rw [WrittenItems] at written
      exact readsItems_single (reads item written.1)
  | item :: next :: more, written, _ => by
      have writtenMore := written
      rw [WrittenItems] at writtenMore
      have writtenNext := writtenMore.2
      rw [WrittenItems] at writtenNext
      exact readsItems_cons (reads item writtenMore.1) writtenNext.1
        (readsItems (next :: more) writtenMore.2 nofun)

theorem readsFields : ∀ fields, WrittenFields numerals.floatText fields → fields ≠ [] →
    ReadsFields numerals separators fields
  | [], _, nonempty => absurd rfl nonempty
  | [(key, value)], written, _ => by
      rw [WrittenFields] at written
      exact @readsFields_single _ _ (key, value) written.1 (reads value written.1)
  | (key, value) :: next :: more, written, _ => by
      rw [WrittenFields] at written
      exact @readsFields_cons _ _ (key, value) next more written.1 (reads value written.1)
        (readsFields (next :: more) written.2 nofun)
end

/-- What was written with these separators is read as it was. -/
theorem loads_dumps {value : Json} (written : Written numerals.floatText value)
    (short : (Json.dumps separators.item separators.key value).length ≤ numerals.maxDigits) :
    loads numerals (Json.dumps separators.item separators.key value) = some value := by
  have begins := @begins_text _ separators _ written
  have scanned := @reads _ separators value written
    (2 * (Json.dumps separators.item separators.key value).length + 1) [] stops_nil
  rw [List.append_nil, String.length_toList] at scanned
  rw [loads, begins.skipGap, scanned (by omega) short]
  rfl

/-- Written values are told apart by their texts. -/
theorem dumps_inj {floatText : String → String} {left right : Json}
    (isLeft : Written floatText left) (isRight : Written floatText right)
    (same : Json.dumps separators.item separators.key left =
      Json.dumps separators.item separators.key right) : left = right := by
  let numerals : NumberReader :=
    ⟨floatText, (Json.dumps separators.item separators.key left).length⟩
  have first := @loads_dumps numerals separators left isLeft (le_refl _)
  have second := @loads_dumps numerals separators right isRight
    (le_of_eq (congrArg String.length same.symm))
  exact Option.some.inj (first.symm.trans ((congrArg (loads numerals) same).trans second))

def defaultSeparators : Separators where
  item := ", "
  key := ": "
  itemGap := [' ']
  keyGap := [' ']
  isItem := rfl
  isKey := rfl
  itemBlank := rfl
  keyBlank := rfl

def compactSeparators : Separators where
  item := ","
  key := ":"
  itemGap := []
  keyGap := []
  isItem := rfl
  isKey := rfl
  itemBlank := rfl
  keyBlank := rfl

/-- `json.dumps` and `json.loads` with the default separators. -/
theorem loads_defaultText {value : Json} (written : Written numerals.floatText value)
    (short : value.defaultText.length ≤ numerals.maxDigits) :
    loads numerals value.defaultText = some value :=
  @loads_dumps _ defaultSeparators _ written short

/-! Sorted keys. -/

variable {floatText : String → String}

theorem writtenFields_iff {fields : List (String × Json)} :
    WrittenFields floatText fields ↔ ∀ field ∈ fields, Written floatText field.2 := by
  induction fields with
  | nil => simp [WrittenFields]
  | cons field rest induction =>
      rw [WrittenFields, induction, List.forall_mem_cons]

theorem keys_sortFields (fields : List (String × Json)) :
    (Json.sortFields fields).map Prod.fst = fields.map Prod.fst := by
  induction fields with
  | nil => rfl
  | cons field rest induction =>
      rw [Json.sortFields, List.map_cons, List.map_cons, induction]

mutual
theorem Written.sortKeys : ∀ value, Written floatText value →
    Written floatText value.sortKeys
  | .null, written => by rw [Json.sortKeys]; exact written
  | .bool _, written => by rw [Json.sortKeys]; exact written
  | .int _, written => by rw [Json.sortKeys]; exact written
  | .float _, written => by rw [Json.sortKeys]; exact written
  | .str _, written => by rw [Json.sortKeys]; exact written
  | .arr items, written => by
      rw [Written] at written
      rw [Json.sortKeys, Written]
      exact WrittenItems.sortItems items written
  | .obj fields, written => by
      rw [Written] at written
      have perm := List.perm_insertionSort
        (fun left right : String × Json => left.1 ≤ right.1) (Json.sortFields fields)
      rw [Json.sortKeys, Written]
      constructor
      · rw [(perm.map Prod.fst).nodup_iff, keys_sortFields]
        exact written.1
      · rw [writtenFields_iff]
        intro field member
        exact writtenFields_iff.mp (WrittenFields.sortFields fields written.2) field
          (perm.mem_iff.mp member)

theorem WrittenItems.sortItems : ∀ items, WrittenItems floatText items →
    WrittenItems floatText (Json.sortItems items)
  | [], written => written
  | item :: rest, written => by
      rw [WrittenItems] at written
      rw [Json.sortItems, WrittenItems]
      exact ⟨Written.sortKeys item written.1, WrittenItems.sortItems rest written.2⟩

theorem WrittenFields.sortFields : ∀ fields, WrittenFields floatText fields →
    WrittenFields floatText (Json.sortFields fields)
  | [], written => written
  | (key, value) :: rest, written => by
      rw [WrittenFields] at written
      rw [Json.sortFields, WrittenFields]
      exact ⟨Written.sortKeys value written.1, WrittenFields.sortFields rest written.2⟩
end

/-- The canonical text tells written values apart, but for the order of their keys. -/
theorem canonicalText_inj {left right : Json} (isLeft : Written floatText left)
    (isRight : Written floatText right) (same : left.canonicalText = right.canonicalText) :
    left.sortKeys = right.sortKeys :=
  @dumps_inj compactSeparators _ _ _ (Written.sortKeys left isLeft)
    (Written.sortKeys right isRight) same

end Raphael.Core.JsonDecoder
