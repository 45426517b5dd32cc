import Raphael.Core.Text

/-! # Integers as text

`int(text)`, `str(value)` and the tests of digits and letters, over what the tables of Unicode
say of a character. -/

namespace Raphael.Core

/-- What the tables of Unicode say of a character. -/
structure CharacterClasses where
  /-- The value of a decimal digit. -/
  decimal : Char → Option Nat
  /-- `character.isdigit()`: also superscripts and the like, which have no decimal value. -/
  isDigit : Char → Bool
  /-- `character.isalnum()`. -/
  isAlnum : Char → Bool
  decimal_ascii : ∀ digit, digit.isDigit = true → decimal digit = some (digit.toNat - 48)
  isDigit_of_decimal : ∀ digit, (decimal digit).isSome = true → isDigit digit = true
  isAlnum_of_isDigit : ∀ digit, isDigit digit = true → isAlnum digit = true
  minus_apart : isDigit '-' = false

/-- How many digits `int` reads and `str` writes at most (`sys.get_int_max_str_digits()`). -/
def maxStrDigits : Nat := 4300

/-- `str(value)` of an integer; none where it raises. -/
def showInt (value : Int) : Option String :=
  if (Nat.toDigits 10 value.natAbs).length ≤ maxStrDigits then some (toString value) else none

/-- Whether a minus stands in front of a number, and what stands behind the sign. -/
def splitSign : List Char → Bool × List Char
  | '-' :: rest => (true, rest)
  | '+' :: rest => (false, rest)
  | rest => (false, rest)

/-- The characters of an integer are decimal digits, behind a minus at most. -/
theorem mem_shown {value : Int} {shown : String} {character : Char}
    (shows : showInt value = some shown) (member : character ∈ shown.toList) :
    character = '-' ∧ value < 0 ∨ character.isDigit = true := by
  unfold showInt at shows
  split at shows
  · cases shows
    rw [Text.toList_int] at member
    rcases List.mem_append.mp member with sign | digit
    · split at sign
      · next negative => exact .inl ⟨List.mem_singleton.mp sign, negative⟩
      · exact absurd sign List.not_mem_nil
    · exact .inr (Text.isDigit_of_mem_decimals digit)
  · cases shows

theorem exists_digit_shown {value : Int} {shown : String} (shows : showInt value = some shown) :
    ∃ digit ∈ shown.toList, digit.isDigit = true := by
  rcases List.exists_mem_of_ne_nil _ (@Nat.toDigits_ne_nil value.natAbs 10) with ⟨digit, member⟩
  refine ⟨digit, ?_, Text.isDigit_of_mem_decimals member⟩
  unfold showInt at shows
  split at shows
  · cases shows
    rw [Text.toList_int]
    exact List.mem_append_right _ member
  · cases shows

namespace CharacterClasses

variable (classes : CharacterClasses)

/-- `text.isdigit()`. -/
def isDigitText (text : String) : Bool := text != "" && text.toList.all classes.isDigit

/-- `text.isalnum()`. -/
def isAlnumText (text : String) : Bool := text != "" && text.toList.all classes.isAlnum

/-- The number of a text of digits, whose groups single underscores may separate. -/
def readDigits (characters : List Char) : Option Nat :=
  let groups := characters.splitOn '_'
  if groups.contains [] then none
  else
    (groups.flatten.mapM classes.decimal).bind fun digits =>
      if digits.length ≤ maxStrDigits then
        some (digits.foldl (fun value digit => 10 * value + digit) 0)
      else none

/-- `int(text)`; none where it raises. -/
def readInt (text : String) : Option Int :=
  let signed := splitSign (Text.strip text).toList
  (classes.readDigits signed.2).map fun value : Nat => if signed.1 then -(value : Int) else value

/-! ## Reading what was written -/

theorem mapM_decimal {characters : List Char} (digits : ∀ digit ∈ characters, digit.isDigit) :
    characters.mapM classes.decimal = some (characters.map fun digit => digit.toNat - 48) := by
  induction characters with
  | nil => rfl
  | cons digit rest induction =>
      have ⟨first, later⟩ := List.forall_mem_cons.mp digits
      rw [List.mapM_cons, classes.decimal_ascii digit first, induction later]
      rfl

theorem readDigits_toDigits {number : Nat}
    (short : (Nat.toDigits 10 number).length ≤ maxStrDigits) :
    classes.readDigits (Nat.toDigits 10 number) = some number := by
  have digits : ∀ digit ∈ Nat.toDigits 10 number, digit.isDigit := fun _ member =>
    Text.isDigit_of_mem_decimals member
  have whole : (Nat.toDigits 10 number).splitOn '_' = [Nat.toDigits 10 number] :=
    List.splitOn_eq_singleton Nat.underscore_not_in_toDigits
  have some : [Nat.toDigits 10 number].contains [] = false := by
    simp [Nat.toDigits_ne_nil.symm]
  have value := @Nat.ofDigitChars_ten_toDigits number
  rw [Nat.ofDigitChars_eq_foldl] at value
  unfold readDigits
  simp only [whole, some, List.flatten_singleton, classes.mapM_decimal digits, Option.bind_some,
    List.length_map, short, if_true, Bool.false_eq_true, if_false, List.foldl_map]
  exact congrArg Option.some value

/-- A digit is no whitespace and no sign. -/
private theorem solid_of_isDigit {digit : Char} (isDigit : digit.isDigit = true) :
    Text.isSpace digit = false := by
  simp only [Char.isDigit, Bool.and_eq_true, decide_eq_true_eq] at isDigit
  have low : 48 ≤ digit.toNat := isDigit.1
  have high : digit.toNat ≤ 57 := isDigit.2
  simp [Text.isSpace]
  omega

theorem splitSign_toDigits (number : Nat) :
    splitSign (Nat.toDigits 10 number) = (false, Nat.toDigits 10 number) := by
  have digits : ∀ digit ∈ Nat.toDigits 10 number, digit.isDigit := fun _ member =>
    Text.isDigit_of_mem_decimals member
  unfold splitSign
  split
  · next rest shape =>
      have isDigit := digits '-' (by rw [shape]; exact List.mem_cons_self)
      cases isDigit
  · next rest shape =>
      have isDigit := digits '+' (by rw [shape]; exact List.mem_cons_self)
      cases isDigit
  · rfl

/-- An integer that is written is read again. -/
theorem readInt_of_showInt {value : Int} {shown : String} (shows : showInt value = some shown) :
    classes.readInt shown = some value := by
  have solid : ∀ character ∈ shown.toList, Text.isSpace character = false := by
    intro character member
    rcases mem_shown shows member with ⟨rfl, _⟩ | isDigit
    · decide
    · exact solid_of_isDigit isDigit
  unfold readInt
  rw [Text.strip_eq_self solid]
  unfold showInt at shows
  split at shows
  · next short =>
      cases shows
      rw [Text.toList_int]
      by_cases negative : value < 0
      · simp only [if_pos negative, List.cons_append, List.nil_append, splitSign,
          classes.readDigits_toDigits short, Option.map_some, if_true, Option.some.injEq]
        omega
      · simp only [if_neg negative, List.nil_append, splitSign_toDigits,
          classes.readDigits_toDigits short, Option.map_some, Bool.false_eq_true, if_false,
          Option.some.injEq]
        omega
  · cases shows

/-! ## Texts of digits -/

/-- A text of digits has no sign. -/
theorem readInt_nonneg {text : String} {value : Int} (digits : classes.isDigitText text = true)
    (reads : classes.readInt text = some value) : 0 ≤ value := by
  rw [isDigitText, Bool.and_eq_true, List.all_eq_true] at digits
  have unsigned : (splitSign (Text.strip text).toList).1 = false := by
    unfold splitSign
    split
    · next rest shape =>
        have inside : '-' ∈ (Text.strip text).toList := by
          rw [shape]
          exact List.mem_cons_self
        have isDigit := digits.2 '-' (Text.mem_of_mem_strip inside)
        rw [classes.minus_apart] at isDigit
        cases isDigit
    · rfl
    · rfl
  unfold readInt at reads
  dsimp only at reads
  rw [unsigned, Option.map_eq_some_iff] at reads
  rcases reads with ⟨number, _, same⟩
  rw [if_neg Bool.false_ne_true] at same
  omega

theorem isDigit_of_ascii {digit : Char} (ascii : digit.isDigit = true) :
    classes.isDigit digit = true := by
  apply classes.isDigit_of_decimal
  rw [classes.decimal_ascii digit ascii]
  rfl

/-- What is written of an integer is a text of digits exactly if there is no minus. -/
theorem isDigitText_shown {value : Int} {shown : String} (shows : showInt value = some shown) :
    classes.isDigitText shown = true ↔ 0 ≤ value := by
  constructor
  · exact fun digits => classes.readInt_nonneg digits (classes.readInt_of_showInt shows)
  · intro nonnegative
    rw [isDigitText, Bool.and_eq_true, List.all_eq_true, bne_iff_ne]
    constructor
    · rintro rfl
      rcases exists_digit_shown shows with ⟨digit, member, _⟩
      exact List.not_mem_nil member
    · intro character member
      rcases mem_shown shows member with ⟨_, negative⟩ | isDigit
      · omega
      · exact classes.isDigit_of_ascii isDigit

/-- What is written of an integer has letters and digits only, but for its minus. -/
theorem isAlnumText_shown {value : Int} {shown : String} (shows : showInt value = some shown) :
    classes.isAlnumText (String.ofList (shown.toList.filter fun character =>
      character != '-' && character != '_')) = true := by
  rw [isAlnumText, Bool.and_eq_true, String.toList_ofList, List.all_eq_true, bne_iff_ne]
  constructor
  · intro empty
    rcases exists_digit_shown shows with ⟨digit, member, isDigit⟩
    have kept : digit ∈ shown.toList.filter fun character =>
        character != '-' && character != '_' := by
      rw [List.mem_filter, Bool.and_eq_true, bne_iff_ne, bne_iff_ne]
      refine ⟨member, ?_, ?_⟩
      · rintro rfl
        cases isDigit
      · rintro rfl
        cases isDigit
    rw [← String.toList_ofList (l := shown.toList.filter _), empty] at kept
    exact List.not_mem_nil kept
  · intro character member
    have ⟨inside, plain⟩ := List.mem_filter.mp member
    rcases mem_shown shows inside with ⟨rfl, _⟩ | isDigit
    · cases plain
    · exact classes.isAlnum_of_isDigit character (classes.isDigit_of_ascii isDigit)

end CharacterClasses

/-- The characters of Latin-1. -/
def latinClasses : CharacterClasses where
  decimal := fun character => if character.isDigit then some (character.toNat - 48) else none
  isDigit := fun character => character.isDigit || ['²', '³', '¹'].contains character
  isAlnum := fun character =>
    character.isAlphanum || ['ª', '²', '³', 'µ', '¹', 'º', '¼', '½', '¾'].contains character ||
      (192 ≤ character.toNat && character.toNat ≤ 255 && character != '×' && character != '÷')
  decimal_ascii := fun digit isDigit => if_pos isDigit
  isDigit_of_decimal := by
    intro digit isDecimal
    by_cases isDigit : digit.isDigit = true
    · rw [isDigit, Bool.true_or]
    · rw [if_neg isDigit] at isDecimal
      cases isDecimal
  isAlnum_of_isDigit := by
    intro digit isDigit
    rcases Bool.or_eq_true_iff.mp isDigit with ascii | superscript
    · simp [Char.isAlphanum, ascii]
    · simp only [List.contains_iff_mem, List.mem_cons, List.not_mem_nil, or_false] at superscript
      rcases superscript with rfl | rfl | rfl <;> decide
  minus_apart := by decide

example : latinClasses.readInt " -1_0 " = some (-10) := by decide +kernel

end Raphael.Core
