import Mathlib.Data.List.Infix

/-! # Text functions of the language

The string operations the modelled code calls, under their own names. Strings
are read as their lists of characters. -/

namespace Raphael.Core.Text

/-- `needle in text`. -/
def contains (needle text : String) : Bool :=
  decide (needle.toList <:+: text.toList)

/-- `text.startswith(start)`. -/
def startsWith (start text : String) : Bool :=
  start.toList.isPrefixOf text.toList

/-- `separator.join(parts)`. -/
def join (separator : String) (parts : List String) : String :=
  separator.intercalate parts

/-- `character.isspace()`. -/
def isSpace (character : Char) : Bool :=
  let code := character.toNat
  (9 ≤ code && code ≤ 13) || (28 ≤ code && code ≤ 32) || (8192 ≤ code && code ≤ 8202) ||
    [133, 160, 5760, 8232, 8233, 8239, 8287, 12288].contains code

/-- `text.strip()` is empty: only whitespace. -/
def isBlank (text : String) : Bool := text.toList.all isSpace

/-- `text.strip()`. -/
def strip (text : String) : String :=
  String.ofList (((text.toList.dropWhile isSpace).reverse.dropWhile isSpace).reverse)

/-- `text[:count]`. -/
def take (count : Nat) (text : String) : String := String.ofList (text.toList.take count)

/-- `text.split(separator)[0]`. -/
def splitFirst (separator : Char) (text : String) : String :=
  String.ofList (text.toList.takeWhile (· ≠ separator))

def hexDigit (digit : Nat) : Char :=
  Char.ofNat (if digit < 10 then 48 + digit else 87 + digit)

/-- The lowest `width` hexadecimal digits of a number. -/
def hex (width number : Nat) : String :=
  String.ofList ((List.range width).reverse.map fun place =>
    hexDigit (number / Nat.pow 16 place % 16))

/-- `repr(text)` for text whose characters beyond the controls are printable. -/
def repr (text : String) : String :=
  let characters := text.toList
  let quote := if characters.contains '\'' && !characters.contains '"' then '"' else '\''
  let escape (character : Char) : List Char :=
    if character == quote || character == '\\' then ['\\', character]
    else if character == '\n' then ['\\', 'n']
    else if character == '\r' then ['\\', 'r']
    else if character == '\t' then ['\\', 't']
    else if character.toNat < 32 || character.toNat == 127 then
      ['\\', 'x'] ++ (hex 2 character.toNat).toList
    else [character]
  String.ofList ([quote] ++ characters.flatMap escape ++ [quote])

/-- The components of a path with either kind of slash. -/
def pathSegments (path : String) : List String :=
  ((path.toList.map fun character => if character == '\\' then '/' else character).splitOn
    '/').map String.ofList

/-- `text.split(separator)`. -/
def split (separator : Char) (text : String) : List String :=
  (text.toList.splitOn separator).map String.ofList

theorem split_ne_nil (separator : Char) (text : String) : split separator text ≠ [] := by
  simp [split, List.splitOn_ne_nil]

/-- Parts without the separator are found again in the text that joins them. -/
theorem split_join {separator : Char} {parts : List String} (some : parts ≠ [])
    (apart : ∀ part ∈ parts, separator ∉ part.toList) :
    split separator (join (String.singleton separator) parts) = parts := by
  have characters : ∀ list ∈ parts.map String.toList, separator ∉ list := by
    intro list member
    rcases List.mem_map.mp member with ⟨part, inside, rfl⟩
    exact apart part inside
  rw [split, join, String.toList_intercalate, String.toList_singleton,
    List.splitOn_intercalate separator characters (by simpa using some)]
  simp

private theorem not_mem_of_mem_splitOn {separator : Char} {characters list : List Char}
    (member : list ∈ characters.splitOn separator) : separator ∉ list := by
  induction characters generalizing list with
  | nil => simp_all
  | cons first rest induction =>
      rw [List.splitOn_cons_eq_if_modifyHead] at member
      split at member
      · rcases List.mem_cons.mp member with rfl | later
        · exact List.not_mem_nil
        · exact induction later
      · next differs =>
          cases parts : rest.splitOn separator with
          | nil => exact absurd parts (List.splitOn_ne_nil separator rest)
          | cons head tail =>
              rw [parts] at member induction
              rcases List.mem_cons.mp member with rfl | later
              · rw [List.mem_cons, not_or]
                exact ⟨fun same => differs (by simp [same]), induction List.mem_cons_self⟩
              · exact induction (List.mem_cons_of_mem head later)

theorem not_mem_of_mem_split {separator : Char} {text part : String}
    (member : part ∈ split separator text) : separator ∉ part.toList := by
  rcases List.mem_map.mp member with ⟨list, inside, rfl⟩
  rw [String.toList_ofList]
  exact not_mem_of_mem_splitOn inside

/-- Numbers are told apart by their decimals. -/
theorem decimal_inj {left right : Nat} (same : left.repr = right.repr) : left = right := by
  have digits := congrArg String.toList same
  rw [Nat.toList_repr, Nat.toList_repr] at digits
  rw [← Nat.ofDigitChars_ten_toDigits (n := left), digits, Nat.ofDigitChars_ten_toDigits]

theorem isDigit_of_mem_decimals {number : Nat} {digit : Char}
    (member : digit ∈ Nat.toDigits 10 number) : digit.isDigit = true :=
  Nat.isDigit_of_mem_toDigits (by decide) (by decide) member

theorem toList_int (value : Int) :
    (toString value).toList =
      (if value < 0 then ['-'] else []) ++ Nat.toDigits 10 value.natAbs := by
  rw [Int.toString_eq_repr, Int.repr_eq_if]
  split
  · next nonnegative =>
      rw [if_neg (by omega), Nat.toList_repr, List.nil_append]
      congr
      omega
  · next negative =>
      rw [if_pos (by omega), String.toList_append, Nat.toList_repr]
      have same : (-value).toNat = value.natAbs := by omega
      rw [same]
      rfl

theorem mem_of_mem_strip {text : String} {character : Char}
    (member : character ∈ (strip text).toList) : character ∈ text.toList := by
  rw [strip, String.toList_ofList, List.mem_reverse] at member
  have inner := (List.dropWhile_sublist isSpace).subset member
  exact (List.dropWhile_sublist isSpace).subset (List.mem_reverse.mp inner)

theorem strip_eq_self {text : String}
    (solid : ∀ character ∈ text.toList, isSpace character = false) : strip text = text := by
  have keeps : ∀ characters : List Char, (∀ character ∈ characters, isSpace character = false) →
      characters.dropWhile isSpace = characters := by
    intro characters solid
    cases characters with
    | nil => rfl
    | cons first rest =>
        rw [List.dropWhile_cons_of_neg (by simp [solid first List.mem_cons_self])]
  rw [strip, keeps _ solid, keeps _ fun character member =>
    solid character (List.mem_reverse.mp member), List.reverse_reverse, String.ofList_toList]

example : repr "it's" = "\"it's\"" := by decide
example : pathSegments "a\\..\\b" = ["a", "..", "b"] := by decide

end Raphael.Core.Text

/-! ## Moments

A UTC `datetime` is its distance from 1970-01-01 in microseconds. -/

namespace Raphael.Core.Moment

/-- At least `width` digits. -/
def pad (width number : Nat) : String :=
  let digits := toString number
  String.ofList (List.replicate (width - digits.length) '0') ++ digits

/-- Year, month and day of a day counted from 1970-01-01. The count is taken in
cycles of 400 years, with years that begin in March. -/
def civil (day : Int) : Nat × Nat × Nat :=
  let shifted := day + 719468
  let era := shifted / 146097
  let ofEra := (shifted % 146097).toNat
  let yearOfEra := (ofEra - ofEra / 1460 + ofEra / 36524 - ofEra / 146096) / 365
  let ofYear := ofEra - (365 * yearOfEra + yearOfEra / 4 - yearOfEra / 100)
  let fromMarch := (5 * ofYear + 2) / 153
  let month := if fromMarch < 10 then fromMarch + 3 else fromMarch - 9
  let year := era * 400 + yearOfEra + (if month ≤ 2 then 1 else 0)
  (year.toNat, month, ofYear - (153 * fromMarch + 2) / 5 + 1)

/-- `str(moment)`: the microseconds are left out where there are none. -/
def text (moment : Int) : String :=
  let (year, month, day) := civil (moment / 86400000000)
  let micros := (moment % 86400000000).toNat
  let seconds := micros / 1000000
  let fraction := micros % 1000000
  pad 4 year ++ "-" ++ pad 2 month ++ "-" ++ pad 2 day ++ " " ++
    pad 2 (seconds / 3600) ++ ":" ++ pad 2 (seconds / 60 % 60) ++ ":" ++
    pad 2 (seconds % 60) ++ (if fraction = 0 then "" else "." ++ pad 6 fraction) ++ "+00:00"

/-- `moment.isoformat()`. -/
def isoformat (moment : Int) : String :=
  (text moment).map fun character => if character == ' ' then 'T' else character

/-- How a moment is written in JSON. -/
def jsonText (moment : Int) : String :=
  String.ofList ((isoformat moment).toList.takeWhile (· != '+')) ++ "Z"

example : text 951827696000123 = "2000-02-29 12:34:56.000123+00:00" := by decide +kernel
example : text 0 = "1970-01-01 00:00:00+00:00" := by decide +kernel

end Raphael.Core.Moment
