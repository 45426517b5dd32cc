import Mathlib.Data.List.TakeWhile
import Raphael.Core.Json

/-! # Reading JSON text

The decoder of the standard library. A value is scanned from the front of the text; what is
behind it is left over. -/

namespace Raphael.Core.JsonDecoder

/-- The next character is the expected one. -/
def expect (character : Char) : List Char → Option (List Char)
  | [] => none
  | next :: rest => if next = character then some rest else none

/-- `WHITESPACE`. -/
def isGap (character : Char) : Bool :=
  character = ' ' || character = '\t' || character = '\n' || character = '\r'

def skipGap (text : List Char) : List Char := text.dropWhile isGap

/-! ## Strings -/

def hexValue (digit : Char) : Option Nat :=
  if digit.isDigit then some (digit.toNat - 48)
  else if 'a' ≤ digit ∧ digit ≤ 'f' then some (digit.toNat - 87)
  else if 'A' ≤ digit ∧ digit ≤ 'F' then some (digit.toNat - 55)
  else none

def hexUnit (first second third fourth : Char) : Option Nat := do
  let first ← hexValue first
  let second ← hexValue second
  let third ← hexValue third
  let fourth ← hexValue fourth
  some (((first * 16 + second) * 16 + third) * 16 + fourth)

/-- `BACKSLASH`. -/
def escapedCode : Char → Option Nat
  | '"' => some 34
  | '\\' => some 92
  | '/' => some 47
  | 'b' => some 8
  | 'f' => some 12
  | 'n' => some 10
  | 'r' => some 13
  | 't' => some 9
  | _ => none

/-- `scanstring`, behind the opening quote: the code units of the text. -/
def scanString : List Char → Option (List Nat × List Char)
  | '"' :: rest => some ([], rest)
  | '\\' :: 'u' :: first :: second :: third :: fourth :: rest =>
      (hexUnit first second third fourth).bind fun unit =>
        (scanString rest).map fun scanned => (unit :: scanned.1, scanned.2)
  | '\\' :: escape :: rest =>
      (escapedCode escape).bind fun unit =>
        (scanString rest).map fun scanned => (unit :: scanned.1, scanned.2)
  | character :: rest =>
      if character.toNat < 32 ∨ character = '\\' then none
      else (scanString rest).map fun scanned => (character.toNat :: scanned.1, scanned.2)
  | [] => none

def isHigh (unit : Nat) : Bool := 55296 ≤ unit && unit < 56320

def isLow (unit : Nat) : Bool := 56320 ≤ unit && unit < 57344

/-- The characters of the code units: a high surrogate and a low one behind it are one
character. A surrogate that stays alone is no character; U+FFFD stands for it. -/
def characters : List Nat → List Char
  | [] => []
  | [unit] => [if isHigh unit || isLow unit then Char.ofNat 65533 else Char.ofNat unit]
  | unit :: next :: rest =>
      if isHigh unit && isLow next then
        Char.ofNat (65536 + (unit - 55296) * 1024 + (next - 56320)) :: characters rest
      else
        (if isHigh unit || isLow unit then Char.ofNat 65533 else Char.ofNat unit) ::
          characters (next :: rest)

/-! ## Numbers -/

/-- What the interpreter does with numbers: the `repr` of the float that a text denotes, and
how many digits an integer may have (`sys.get_int_max_str_digits()`). -/
structure NumberReader where
  floatText : String → String
  maxDigits : Nat := 4300

def scanSign : List Char → List Char × List Char
  | '-' :: rest => (['-'], rest)
  | text => ([], text)

def scanWhole : List Char → Option (List Char × List Char)
  | '0' :: rest => some (['0'], rest)
  | digit :: rest =>
      if digit.isDigit then
        some (digit :: rest.takeWhile Char.isDigit, rest.dropWhile Char.isDigit)
      else none
  | [] => none

/-- A point with digits behind it. -/
def scanFraction : List Char → List Char × List Char
  | '.' :: rest =>
      if rest.takeWhile Char.isDigit = [] then ([], '.' :: rest)
      else ('.' :: rest.takeWhile Char.isDigit, rest.dropWhile Char.isDigit)
  | text => ([], text)

def scanExponentSign : List Char → List Char × List Char
  | '-' :: rest => (['-'], rest)
  | '+' :: rest => (['+'], rest)
  | text => ([], text)

/-- An `e` with digits behind it, which may have a sign. -/
def scanExponent : List Char → List Char × List Char
  | [] => ([], [])
  | mark :: rest =>
      if mark = 'e' ∨ mark = 'E' then
        let signed := scanExponentSign rest
        if signed.2.takeWhile Char.isDigit = [] then ([], mark :: rest)
        else (mark :: signed.1 ++ signed.2.takeWhile Char.isDigit,
          signed.2.dropWhile Char.isDigit)
      else ([], mark :: rest)

/-- `int(text)` of a sign and digits. -/
def signedInteger (sign digits : List Char) : Int :=
  if sign = [] then Nat.ofDigitChars 10 digits 0 else -(Nat.ofDigitChars 10 digits 0 : Int)

/-- `_match_number`. -/
def scanNumber (numerals : NumberReader) (text : List Char) : Option (Json × List Char) :=
  let signed := scanSign text
  (scanWhole signed.2).bind fun whole =>
    let fraction := scanFraction whole.2
    let exponent := scanExponent fraction.2
    if fraction.1 = [] ∧ exponent.1 = [] then
      if numerals.maxDigits < whole.1.length then none
      else some (.int (signedInteger signed.1 whole.1), exponent.2)
    else
      some (.float (numerals.floatText
        (String.ofList (signed.1 ++ whole.1 ++ fraction.1 ++ exponent.1))), exponent.2)

/-! ## Values -/

def words : List (List Char × Json) := [
  (['n', 'u', 'l', 'l'], .null),
  (['t', 'r', 'u', 'e'], .bool true),
  (['f', 'a', 'l', 's', 'e'], .bool false),
  (['N', 'a', 'N'], .float "nan"),
  (['I', 'n', 'f', 'i', 'n', 'i', 't', 'y'], .float "inf"),
  (['-', 'I', 'n', 'f', 'i', 'n', 'i', 't', 'y'], .float "-inf")]

def scanAtom (numerals : NumberReader) (text : List Char) : Option (Json × List Char) :=
  (words.findSome? fun word => (text.dropPrefix? word.1).map fun rest => (word.2, rest)).or
    (scanNumber numerals text)

section

variable (numerals : NumberReader)

/-! A call is on a shorter text than its caller's, or for the first item of an array on the
same. A fuel beyond twice the length of the text is never used up. -/

mutual
/-- `scan_once`. -/
def scanValue : Nat → List Char → Option (Json × List Char)
  | 0, _ => none
  | _ + 1, [] => none
  | fuel + 1, character :: rest =>
      if character = '"' then
        (scanString rest).map fun (units, rest) =>
          (.str (String.ofList (characters units)), rest)
      else if character = '{' then
        match expect '}' (skipGap rest) with
        | some rest => some (.obj [], rest)
        | none =>
            (scanMembers fuel (skipGap rest)).map fun (members, rest) =>
              (.obj (Json.merge [] members), rest)
      else if character = '[' then
        match expect ']' (skipGap rest) with
        | some rest => some (.arr [], rest)
        | none =>
            (scanItems fuel (skipGap rest)).map fun (items, rest) => (.arr items, rest)
      else scanAtom numerals (character :: rest)

/-- The members of an object, with the closing brace. -/
def scanMembers : Nat → List Char → Option (List (String × Json) × List Char)
  | 0, _ => none
  | fuel + 1, text => do
      let text ← expect '"' text
      let (units, text) ← scanString text
      let text ← expect ':' (skipGap text)
      let (value, text) ← scanValue fuel (skipGap text)
      let member := (String.ofList (characters units), value)
      match expect '}' (skipGap text) with
      | some rest => some ([member], rest)
      | none => do
          let text ← expect ',' (skipGap text)
          let (members, rest) ← scanMembers fuel (skipGap text)
          some (member :: members, rest)

/-- The items of an array, with the closing bracket. -/
def scanItems : Nat → List Char → Option (List Json × List Char)
  | 0, _ => none
  | fuel + 1, text => do
      let (item, text) ← scanValue fuel text
      match expect ']' (skipGap text) with
      | some rest => some ([item], rest)
      | none => do
          let text ← expect ',' (skipGap text)
          let (items, rest) ← scanItems fuel (skipGap text)
          some (item :: items, rest)
end

/-- `json.loads`; nothing where it raises a `ValueError`. -/
def loads (text : String) : Option Json := do
  let (value, rest) ← scanValue numerals (2 * text.length + 1) (skipGap text.toList)
  if skipGap rest = [] then some value else none

end

/-! ## What a value takes from the text -/

/-- What is behind the opening quote of a string, with its closing quote. -/
inductive StringBody : List Char → Prop
  | close : StringBody ['"']
  | escaped (character : Char) {rest : List Char} :
      StringBody rest → StringBody ('\\' :: character :: rest)
  | plain {character : Char} {rest : List Char} : character ≠ '"' → character ≠ '\\' →
      StringBody rest → StringBody (character :: rest)

/-- Outside of strings, every brace is closed. -/
inductive Balanced : List Char → Prop
  | nil : Balanced []
  | plain {character : Char} {rest : List Char} : character ∉ ['"', '{', '}'] →
      Balanced rest → Balanced (character :: rest)
  | quoted {body rest : List Char} : StringBody body → Balanced rest →
      Balanced ('"' :: (body ++ rest))
  | braces {inner rest : List Char} : Balanced inner → Balanced rest →
      Balanced ('{' :: (inner ++ '}' :: rest))

theorem Balanced.append {left right : List Char} (first : Balanced left)
    (second : Balanced right) : Balanced (left ++ right) := by
  induction first with
  | nil => exact second
  | plain isPlain _ induction => exact .plain isPlain induction
  | quoted body _ induction =>
      rw [List.cons_append, List.append_assoc]
      exact .quoted body induction
  | braces inner _ _ induction =>
      rw [List.cons_append, List.append_assoc, List.cons_append]
      exact .braces inner induction

/-- Text without quotes and braces is balanced. -/
theorem balanced_of_plain {text : List Char}
    (isPlain : ∀ character ∈ text, character ∉ ['"', '{', '}']) : Balanced text := by
  induction text with
  | nil => exact .nil
  | cons character rest induction =>
      exact .plain (isPlain character List.mem_cons_self)
        (induction fun other member => isPlain other (List.mem_cons_of_mem character member))

/-- What was taken is balanced, and something was. -/
def Takes (text rest : List Char) : Prop :=
  ∃ taken, text = taken ++ rest ∧ taken ≠ [] ∧ Balanced taken

theorem Takes.length_lt {text rest : List Char} (takes : Takes text rest) :
    rest.length < text.length := by
  rcases takes with ⟨taken, rfl, nonempty, -⟩
  have := List.length_pos_iff.mpr nonempty
  rw [List.length_append]
  omega

theorem expect_eq_some {character : Char} {text rest : List Char} :
    expect character text = some rest ↔ text = character :: rest := by
  cases text with
  | nil => simp [expect]
  | cons next tail => simp [expect]

/-- Between two tokens there may be gaps. -/
theorem skipGap_append (text : List Char) :
    ∃ gap, text = gap ++ skipGap text ∧ Balanced gap := by
  refine ⟨text.takeWhile isGap, (List.takeWhile_append_dropWhile).symm, ?_⟩
  apply balanced_of_plain
  intro character member
  have gap := List.mem_takeWhile_imp member
  rintro quote
  simp only [List.mem_cons, List.not_mem_nil, or_false] at quote
  rcases quote with rfl | rfl | rfl <;> cases gap

theorem hexValue_plain {digit : Char} {value : Nat} (isHex : hexValue digit = some value) :
    digit ≠ '"' ∧ digit ≠ '\\' := by
  constructor <;> rintro rfl <;> cases isHex

theorem hexUnit_plain {first second third fourth : Char} {unit : Nat}
    (isUnit : hexUnit first second third fourth = some unit) :
    ∀ digit ∈ [first, second, third, fourth], digit ≠ '"' ∧ digit ≠ '\\' := by
  simp only [hexUnit, Option.bind_eq_bind, Option.bind_eq_some_iff] at isUnit
  rcases isUnit with ⟨_, isFirst, _, isSecond, _, isThird, _, isFourth, _⟩
  simp only [List.forall_mem_cons, List.not_mem_nil, false_implies, implies_true, and_true]
  exact ⟨hexValue_plain isFirst, hexValue_plain isSecond, hexValue_plain isThird,
    hexValue_plain isFourth⟩

theorem scanString_body {text rest : List Char} {units : List Nat}
    (scanned : scanString text = some (units, rest)) :
    ∃ body, text = body ++ rest ∧ StringBody body := by
  fun_induction scanString text generalizing units rest with
  | case1 behind =>
      cases scanned
      exact ⟨['"'], rfl, .close⟩
  | case2 first second third fourth behind induction =>
      rcases Option.bind_eq_some_iff.mp scanned with ⟨unit, isUnit, mapped⟩
      rcases Option.map_eq_some_iff.mp mapped with ⟨⟨more, left⟩, later, same⟩
      cases same
      rcases induction later with ⟨body, rfl, isBody⟩
      have digits := hexUnit_plain isUnit
      simp only [List.forall_mem_cons] at digits
      rcases digits with ⟨one, two, three, four, -⟩
      exact ⟨'\\' :: 'u' :: first :: second :: third :: fourth :: body, rfl,
        .escaped 'u' (.plain one.1 one.2 (.plain two.1 two.2 (.plain three.1 three.2
          (.plain four.1 four.2 isBody))))⟩
  | case3 escape behind _ induction =>
      rcases Option.bind_eq_some_iff.mp scanned with ⟨unit, -, mapped⟩
      rcases Option.map_eq_some_iff.mp mapped with ⟨⟨more, left⟩, later, same⟩
      cases same
      rcases induction later with ⟨body, rfl, isBody⟩
      exact ⟨'\\' :: escape :: body, rfl, .escaped escape isBody⟩
  | case4 => cases scanned
  | case5 character behind noQuote _ _ isPlain induction =>
      rcases Option.map_eq_some_iff.mp scanned with ⟨⟨more, left⟩, later, same⟩
      cases same
      rcases induction later with ⟨body, rfl, isBody⟩
      rw [not_or] at isPlain
      exact ⟨character :: body, rfl, .plain noQuote isPlain.2 isBody⟩
  | case6 => cases scanned

/-! The parts of a number. -/

/-- Numbers are written without quotes and braces. -/
def isNumeral (character : Char) : Bool :=
  character.isDigit || ['-', '+', '.', 'e', 'E'].contains character

theorem isNumeral_plain {character : Char} (numeral : isNumeral character) :
    character ∉ ['"', '{', '}'] := by
  rintro quote
  simp only [List.mem_cons, List.not_mem_nil, or_false] at quote
  rcases quote with rfl | rfl | rfl <;> cases numeral

/-- A part of a number, and what is behind it. -/
def Part (text : List Char) (scanned : List Char × List Char) : Prop :=
  text = scanned.1 ++ scanned.2 ∧ ∀ character ∈ scanned.1, isNumeral character

theorem single_numeral {character : Char} (numeral : isNumeral character) :
    ∀ other ∈ [character], isNumeral other := by
  simpa using numeral

theorem part_none (text : List Char) : Part text ([], text) := ⟨rfl, nofun⟩

theorem digits_numeral (text : List Char) :
    ∀ character ∈ text.takeWhile Char.isDigit, isNumeral character := by
  intro character member
  rw [isNumeral, List.mem_takeWhile_imp member, Bool.true_or]

theorem part_digits {before text : List Char}
    (numeral : ∀ character ∈ before, isNumeral character) :
    Part (before ++ text)
      (before ++ text.takeWhile Char.isDigit, text.dropWhile Char.isDigit) := by
  constructor
  · rw [List.append_assoc, List.takeWhile_append_dropWhile]
  · intro character member
    rcases List.mem_append.mp member with first | second
    · exact numeral character first
    · exact digits_numeral text character second

theorem scanSign_part (text : List Char) : Part text (scanSign text) := by
  unfold scanSign
  split
  · exact ⟨rfl, single_numeral rfl⟩
  · exact part_none text

theorem scanWhole_part {text : List Char} {scanned : List Char × List Char}
    (found : scanWhole text = some scanned) : Part text scanned ∧ scanned.1 ≠ [] := by
  unfold scanWhole at found
  split at found
  · cases found
    exact ⟨⟨rfl, single_numeral rfl⟩, nofun⟩
  · next digit rest _ =>
      split at found
      · next isDigit =>
          cases found
          have numeral : isNumeral digit := by rw [isNumeral, isDigit, Bool.true_or]
          exact ⟨part_digits (single_numeral numeral), nofun⟩
      · cases found
  · cases found

theorem scanFraction_part (text : List Char) : Part text (scanFraction text) := by
  unfold scanFraction
  split
  · split
    · exact part_none _
    · exact part_digits (@single_numeral '.' rfl)
  · exact part_none text

theorem scanExponentSign_part (text : List Char) : Part text (scanExponentSign text) := by
  unfold scanExponentSign
  split
  · exact ⟨rfl, single_numeral rfl⟩
  · exact ⟨rfl, single_numeral rfl⟩
  · exact part_none text

theorem scanExponent_part (text : List Char) : Part text (scanExponent text) := by
  unfold scanExponent
  split
  · exact part_none _
  · next mark rest =>
      split
      · next isMark =>
          have sign := scanExponentSign_part rest
          dsimp only
          split
          · exact part_none _
          · have numeral : ∀ character ∈ mark :: (scanExponentSign rest).1,
                isNumeral character := by
              rintro character member
              rcases List.mem_cons.mp member with rfl | later
              · rcases isMark with rfl | rfl <;> rfl
              · exact sign.2 character later
            have part := @part_digits _ (scanExponentSign rest).2 numeral
            rw [List.cons_append, ← sign.1] at part
            exact part
      · exact part_none _

theorem scanNumber_takes {numerals : NumberReader} {text rest : List Char} {value : Json}
    (scanned : scanNumber numerals text = some (value, rest)) :
    ∃ taken, text = taken ++ rest ∧ taken ≠ [] ∧ ∀ character ∈ taken, isNumeral character := by
  simp only [scanNumber, Option.bind_eq_some_iff] at scanned
  rcases scanned with ⟨⟨whole, behind⟩, isWhole, scanned⟩
  rcases scanWhole_part isWhole with ⟨wholePart, nonempty⟩
  have sign := scanSign_part text
  have fraction := scanFraction_part behind
  have exponent := scanExponent_part (scanFraction behind).2
  have left : rest = (scanExponent (scanFraction behind).2).2 := by
    split at scanned
    · split at scanned
      · cases scanned
      · cases scanned
        rfl
    · cases scanned
      rfl
  refine ⟨(scanSign text).1 ++ (whole ++ ((scanFraction behind).1 ++
    (scanExponent (scanFraction behind).2).1)), ?_, ?_, ?_⟩
  · rw [left, List.append_assoc, List.append_assoc, List.append_assoc, ← exponent.1,
      ← fraction.1]
    exact sign.1.trans (congrArg _ wholePart.1)
  · intro empty
    exact nonempty (List.append_eq_nil_iff.mp (List.append_eq_nil_iff.mp empty).2).1
  · intro character member
    simp only [List.mem_append] at member
    rcases member with inSign | inWhole | inFraction | inExponent
    · exact sign.2 character inSign
    · exact wholePart.2 character inWhole
    · exact fraction.2 character inFraction
    · exact exponent.2 character inExponent

/-! Values. -/

/-- Behind an opening brace, the text is balanced up to the closing one. -/
def Closes (text rest : List Char) : Prop :=
  ∃ inner, text = inner ++ '}' :: rest ∧ Balanced inner

theorem words_plain : ∀ word ∈ words, word.1 ≠ [] ∧
    ∀ character ∈ word.1, character ∉ ['"', '{', '}'] := by
  simp [words]

theorem scanAtom_takes {numerals : NumberReader} {text rest : List Char} {value : Json}
    (scanned : scanAtom numerals text = some (value, rest)) : Takes text rest := by
  rcases Option.or_eq_some_iff.mp scanned with word | ⟨-, number⟩
  · rcases List.exists_of_findSome?_eq_some word with ⟨⟨letters, meaning⟩, member, found⟩
    rcases Option.map_eq_some_iff.mp found with ⟨behind, dropped, same⟩
    cases same
    rcases List.dropPrefix?_eq_some_iff.mp dropped with ⟨taken, split, equal⟩
    cases eq_of_beq equal
    have isPlain := words_plain _ member
    exact ⟨letters, split, isPlain.1, balanced_of_plain isPlain.2⟩
  · rcases scanNumber_takes number with ⟨taken, split, nonempty, numeral⟩
    exact ⟨taken, split, nonempty,
      balanced_of_plain fun character member => isNumeral_plain (numeral character member)⟩

theorem Closes.gap {text rest : List Char} (closes : Closes (skipGap text) rest) :
    Closes text rest := by
  rcases closes with ⟨inner, split, balanced⟩
  rcases skipGap_append text with ⟨gap, whole, isGap⟩
  refine ⟨gap ++ inner, ?_, isGap.append balanced⟩
  rw [whole, split, List.append_assoc]

theorem Takes.closes {text behind rest : List Char} (takes : Takes text behind)
    (closes : Closes behind rest) : Closes text rest := by
  rcases takes with ⟨taken, rfl, -, balanced⟩
  rcases closes with ⟨inner, rfl, isInner⟩
  exact ⟨taken ++ inner, by rw [List.append_assoc], balanced.append isInner⟩

theorem Takes.gap {text rest : List Char} (takes : Takes (skipGap text) rest) :
    Takes text rest := by
  rcases takes with ⟨taken, split, nonempty, balanced⟩
  rcases skipGap_append text with ⟨gap, whole, isGap⟩
  refine ⟨gap ++ taken, ?_, ?_, isGap.append balanced⟩
  · rw [whole, split, List.append_assoc]
  · exact List.append_ne_nil_of_right_ne_nil gap nonempty

theorem Takes.trans {text behind rest : List Char} (first : Takes text behind)
    (second : Takes behind rest) : Takes text rest := by
  rcases first with ⟨taken, rfl, nonempty, balanced⟩
  rcases second with ⟨more, rfl, -, isMore⟩
  exact ⟨taken ++ more, by rw [List.append_assoc], List.append_ne_nil_of_left_ne_nil nonempty _,
    balanced.append isMore⟩

theorem takes_plain {character : Char} {rest : List Char}
    (isPlain : character ∉ ['"', '{', '}']) : Takes (character :: rest) rest :=
  ⟨[character], rfl, nofun, .plain isPlain .nil⟩

theorem takes_string {text rest : List Char} {units : List Nat}
    (scanned : scanString text = some (units, rest)) : Takes ('"' :: text) rest := by
  rcases scanString_body scanned with ⟨body, rfl, isBody⟩
  refine ⟨'"' :: body, rfl, nofun, ?_⟩
  have quoted := Balanced.quoted isBody .nil
  rw [List.append_nil] at quoted
  exact quoted

theorem Closes.takes {text rest : List Char} (closes : Closes text rest) :
    Takes ('{' :: text) rest := by
  rcases closes with ⟨inner, rfl, balanced⟩
  refine ⟨'{' :: (inner ++ ['}']), ?_, nofun, .braces balanced .nil⟩
  rw [List.cons_append, List.append_assoc]
  rfl

variable {numerals : NumberReader}

/-- What the three scanners take with a fuel. -/
structure Scans (numerals : NumberReader) (fuel : Nat) : Prop where
  value {text rest : List Char} {value : Json} :
    scanValue numerals fuel text = some (value, rest) → Takes text rest
  members {text rest : List Char} {members : List (String × Json)} :
    scanMembers numerals fuel text = some (members, rest) → Closes text rest
  items {text rest : List Char} {items : List Json} :
    scanItems numerals fuel text = some (items, rest) → Takes text rest

/-- An object is closed by the first brace that balances its opening one. -/
theorem Scans.object {fuel : Nat} (scans : Scans numerals fuel) {text rest : List Char}
    {value : Json} (scanned : scanValue numerals (fuel + 1) ('{' :: text) = some (value, rest)) :
    Closes text rest := by
  rw [scanValue, if_neg (by decide), if_pos rfl] at scanned
  apply Closes.gap
  cases closing : expect '}' (skipGap text) with
  | some behind =>
      rw [closing] at scanned
      cases scanned
      exact ⟨[], expect_eq_some.mp closing, .nil⟩
  | none =>
      rw [closing] at scanned
      rcases Option.map_eq_some_iff.mp scanned with ⟨⟨members, left⟩, found, same⟩
      cases same
      exact scans.members found

theorem Scans.value_succ {fuel : Nat} (scans : Scans numerals fuel) {text rest : List Char}
    {value : Json} (scanned : scanValue numerals (fuel + 1) text = some (value, rest)) :
    Takes text rest := by
  cases text with
  | nil => cases scanned
  | cons character tail =>
      by_cases quote : character = '"'
      · subst quote
        rw [scanValue, if_pos rfl] at scanned
        rcases Option.map_eq_some_iff.mp scanned with ⟨⟨units, left⟩, found, same⟩
        cases same
        exact takes_string found
      · by_cases brace : character = '{'
        · subst brace
          exact (scans.object scanned).takes
        · by_cases bracket : character = '['
          · subst bracket
            rw [scanValue, if_neg quote, if_neg brace, if_pos rfl] at scanned
            apply (takes_plain (by decide)).trans
            apply Takes.gap
            cases closing : expect ']' (skipGap tail) with
            | some behind =>
                rw [closing] at scanned
                cases scanned
                rw [expect_eq_some.mp closing]
                exact takes_plain (by decide)
            | none =>
                rw [closing] at scanned
                rcases Option.map_eq_some_iff.mp scanned with ⟨⟨items, left⟩, found, same⟩
                cases same
                exact scans.items found
          · rw [scanValue, if_neg quote, if_neg brace, if_neg bracket] at scanned
            exact scanAtom_takes scanned

theorem Scans.members_succ {fuel : Nat} (scans : Scans numerals fuel) {text rest : List Char}
    {members : List (String × Json)}
    (scanned : scanMembers numerals (fuel + 1) text = some (members, rest)) :
    Closes text rest := by
  rw [scanMembers] at scanned
  simp only [Option.bind_eq_bind, Option.bind_eq_some_iff] at scanned
  rcases scanned with ⟨quoted, isQuoted, ⟨units, behindKey⟩, isKey, colon, isColon,
    ⟨value, behindValue⟩, isValue, scanned⟩
  cases expect_eq_some.mp isQuoted
  have colonTaken := @takes_plain ':' colon (by decide)
  rw [← expect_eq_some.mp isColon] at colonTaken
  have taken := ((takes_string isKey).trans colonTaken.gap).trans (scans.value isValue).gap
  apply taken.closes
  apply Closes.gap
  cases closing : expect '}' (skipGap behindValue) with
  | some behind =>
      simp only [closing] at scanned
      cases scanned
      exact ⟨[], expect_eq_some.mp closing, .nil⟩
  | none =>
      simp only [closing] at scanned
      rcases Option.bind_eq_some_iff.mp scanned with ⟨comma, isComma, scanned⟩
      rcases Option.bind_eq_some_iff.mp scanned with ⟨⟨more, left⟩, found, same⟩
      cases same
      have commaTaken := @takes_plain ',' comma (by decide)
      rw [← expect_eq_some.mp isComma] at commaTaken
      exact commaTaken.closes (scans.members found).gap

theorem Scans.items_succ {fuel : Nat} (scans : Scans numerals fuel) {text rest : List Char}
    {items : List Json}
    (scanned : scanItems numerals (fuel + 1) text = some (items, rest)) : Takes text rest := by
  rw [scanItems] at scanned
  simp only [Option.bind_eq_bind, Option.bind_eq_some_iff] at scanned
  rcases scanned with ⟨⟨item, behindItem⟩, isItem, scanned⟩
  apply (scans.value isItem).trans
  apply Takes.gap
  cases closing : expect ']' (skipGap behindItem) with
  | some behind =>
      simp only [closing] at scanned
      cases scanned
      rw [expect_eq_some.mp closing]
      exact takes_plain (by decide)
  | none =>
      simp only [closing] at scanned
      rcases Option.bind_eq_some_iff.mp scanned with ⟨comma, isComma, scanned⟩
      rcases Option.bind_eq_some_iff.mp scanned with ⟨⟨more, left⟩, found, same⟩
      cases same
      rw [expect_eq_some.mp isComma]
      exact (takes_plain (by decide)).trans (scans.items found).gap

theorem scans (numerals : NumberReader) (fuel : Nat) : Scans numerals fuel := by
  induction fuel with
  | zero => exact ⟨nofun, nofun, nofun⟩
  | succ fuel induction =>
      exact ⟨induction.value_succ, induction.members_succ, induction.items_succ⟩

/-! ## The fuel -/

theorem length_skipGap_le (text : List Char) : (skipGap text).length ≤ text.length :=
  (List.dropWhile_sublist isGap).length_le

theorem length_of_expect {character : Char} {text rest : List Char}
    (next : expect character text = some rest) : text.length = rest.length + 1 := by
  rw [expect_eq_some.mp next, List.length_cons]

/-- Two fuels beyond twice the length of the text scan the same. -/
structure SameScan (numerals : NumberReader) (fuel other : Nat) : Prop where
  value (text : List Char) : 2 * text.length < fuel → 2 * text.length < other →
    scanValue numerals fuel text = scanValue numerals other text
  members (text : List Char) : 2 * text.length < fuel → 2 * text.length < other →
    scanMembers numerals fuel text = scanMembers numerals other text
  items (text : List Char) : 2 * text.length + 1 < fuel → 2 * text.length + 1 < other →
    scanItems numerals fuel text = scanItems numerals other text

theorem SameScan.value_succ {fuel other : Nat} (same : SameScan numerals fuel other)
    {text : List Char} (enough : 2 * text.length < fuel + 1)
    (otherEnough : 2 * text.length < other + 1) :
    scanValue numerals (fuel + 1) text = scanValue numerals (other + 1) text := by
  cases text with
  | nil => rfl
  | cons character tail =>
      have short := length_skipGap_le tail
      rw [List.length_cons] at enough otherEnough
      rw [scanValue, scanValue, same.members (skipGap tail) (by omega) (by omega),
        same.items (skipGap tail) (by omega) (by omega)]

theorem SameScan.members_succ {fuel other : Nat} (same : SameScan numerals fuel other)
    {text : List Char} (enough : 2 * text.length < fuel + 1)
    (otherEnough : 2 * text.length < other + 1) :
    scanMembers numerals (fuel + 1) text = scanMembers numerals (other + 1) text := by
  rw [scanMembers, scanMembers]
  simp only [Option.bind_eq_bind]
  apply Option.bind_congr
  intro quoted isQuoted
  apply Option.bind_congr
  rintro ⟨units, behindKey⟩ isKey
  apply Option.bind_congr
  intro colon isColon
  dsimp only at isColon
  have shorter : colon.length < text.length := by
    have first := length_of_expect isQuoted
    have second := (takes_string isKey).length_lt
    have third := length_of_expect isColon
    have fourth := length_skipGap_le behindKey
    rw [List.length_cons] at second
    omega
  have short := length_skipGap_le colon
  rw [same.value (skipGap colon) (by omega) (by omega)]
  apply Option.bind_congr
  rintro ⟨value, behindValue⟩ isValue
  have fifth := ((scans numerals other).value isValue).length_lt
  cases expect '}' (skipGap behindValue) with
  | some behind => rfl
  | none =>
      apply Option.bind_congr
      intro comma isComma
      dsimp only at isComma
      have sixth := length_of_expect isComma
      have seventh := length_skipGap_le behindValue
      have eighth := length_skipGap_le comma
      rw [same.members (skipGap comma) (by omega) (by omega)]

theorem SameScan.items_succ {fuel other : Nat} (same : SameScan numerals fuel other)
    {text : List Char} (enough : 2 * text.length + 1 < fuel + 1)
    (otherEnough : 2 * text.length + 1 < other + 1) :
    scanItems numerals (fuel + 1) text = scanItems numerals (other + 1) text := by
  rw [scanItems, scanItems, same.value text (by omega) (by omega)]
  simp only [Option.bind_eq_bind]
  apply Option.bind_congr
  rintro ⟨item, behindItem⟩ isItem
  have first := ((scans numerals other).value isItem).length_lt
  cases expect ']' (skipGap behindItem) with
  | some behind => rfl
  | none =>
      apply Option.bind_congr
      intro comma isComma
      dsimp only at isComma
      have second := length_of_expect isComma
      have third := length_skipGap_le behindItem
      have fourth := length_skipGap_le comma
      rw [same.items (skipGap comma) (by omega) (by omega)]

/-- Enough fuel is as good as more. -/
theorem sameScan (numerals : NumberReader) (fuel other : Nat) : SameScan numerals fuel other := by
  induction fuel generalizing other with
  | zero =>
      constructor <;> intro text enough <;> exact absurd enough (by omega)
  | succ fuel induction =>
      cases other with
      | zero => constructor <;> intro text _ enough <;> exact absurd enough (by omega)
      | succ other =>
          have same := induction other
          constructor
          · intro text enough otherEnough
            exact same.value_succ enough otherEnough
          · intro text enough otherEnough
            exact same.members_succ enough otherEnough
          · intro text enough otherEnough
            exact same.items_succ enough otherEnough

/-- How much fuel there is beyond that does not matter to what is read. -/
theorem loads_eq {text : String} {fuel : Nat} (enough : 2 * text.length < fuel) :
    loads numerals text =
      (scanValue numerals fuel (skipGap text.toList)).bind fun scanned =>
        if skipGap scanned.2 = [] then some scanned.1 else none := by
  have short := length_skipGap_le text.toList
  rw [String.length_toList] at short
  rw [loads, (sameScan numerals (2 * text.length + 1) fuel).value _ (by omega) (by omega)]
  rfl

end Raphael.Core.JsonDecoder
