import Raphael.Core.JsonDecoder

/-! # Extraction of a JSON object from a model's answer

The whole answer is tried first, then a fenced block, then the first brace up to the one that
balances it. The fence is searched for in the plain characters, and so it is also found within
the strings of an object. -/

namespace Raphael.Intelligence

open Core JsonDecoder

/-! ## The regular expression -/

def fenceMark : List Char := ['`', '`', '`']

def fenceLabel : List Char := ['j', 's', 'o', 'n']

/-- Behind an opening brace: up to the first closing one that a fence follows. -/
def closeFence : List Char → Option (List Char)
  | [] => none
  | character :: rest =>
      if character = '}' ∧ fenceMark <+: rest.dropWhile Text.isSpace then some ['}']
      else (closeFence rest).map (character :: ·)

/-- A match that starts here. The word `json` is taken where it stands; no match goes on with
its `j`. -/
def fenceAt (text : List Char) : Option (List Char) :=
  (text.dropPrefix? fenceMark).bind fun behind =>
    let labelled := (behind.dropPrefix? fenceLabel).getD behind
    (expect '{' (labelled.dropWhile Text.isSpace)).bind fun body =>
      (closeFence body).map ('{' :: ·)

/-- The group of the first match. -/
def searchFence : List Char → Option (List Char)
  | [] => none
  | character :: rest => (fenceAt (character :: rest)).or (searchFence rest)

/-! ## The scan for the balancing brace -/

structure BraceState where
  depth : Int := 0
  inString : Bool := false
  escaped : Bool := false

def BraceState.next (state : BraceState) (character : Char) : BraceState :=
  if state.inString then
    if state.escaped then { state with escaped := false }
    else if character = '\\' then { state with escaped := true }
    else if character = '"' then { state with inString := false }
    else state
  else if character = '"' then { state with inString := true }
  else if character = '{' then { state with depth := state.depth + 1 }
  else if character = '}' then { state with depth := state.depth - 1 }
  else state

/-- The text up to the brace that brings the depth back to zero. -/
def scanBraces (state : BraceState) : List Char → Option (List Char)
  | [] => none
  | character :: rest =>
      if !state.inString ∧ character = '}' ∧ (state.next character).depth = 0 then
        some [character]
      else (scanBraces (state.next character) rest).map (character :: ·)

def extractJsonBlock (numerals : NumberReader) (text : String) : String :=
  let stripped := Text.strip text
  match loads numerals stripped with
  | some _ => stripped
  | none =>
      match searchFence stripped.toList with
      | some group => String.ofList group
      | none =>
          match scanBraces {} (stripped.toList.dropWhile (· ≠ '{')) with
          | some block => String.ofList block
          | none => stripped

/-! ## What the extraction is asked for -/

/-- The text of a JSON object, from its brace to its brace, however long its numbers are. -/
def IsObjectText (text : String) : Prop :=
  ∃ numerals fuel fields, scanValue numerals fuel text.toList = some (.obj fields, [])

/-- No braces, brackets, quotes, backticks or digits. -/
def Prose (text : String) : Prop :=
  ∀ character ∈ text.toList,
    character ∉ ['{', '}', '[', ']', '"', '\'', '`'] ∧ character.isDigit = false

/-- A fence around a group in braces. -/
def Fenced (group text : List Char) : Prop :=
  ∃ label space body space', (label = [] ∨ label = fenceLabel) ∧
    space.all Text.isSpace ∧ space'.all Text.isSpace ∧ group = '{' :: (body ++ ['}']) ∧
    text = fenceMark ++ (label ++ (space ++ (group ++ (space' ++ fenceMark))))

/-- Somewhere in the text stands a fenced group. -/
def HasFence (text : List Char) : Prop :=
  ∃ group fenced, Fenced group fenced ∧ fenced <:+: text

/-! ## The brace scan -/

theorem scanBraces_string {body : List Char} (isBody : StringBody body) (depth : Int)
    (rest : List Char) :
    scanBraces ⟨depth, true, false⟩ (body ++ rest) =
      (scanBraces ⟨depth, false, false⟩ rest).map (body ++ ·) := by
  induction isBody with
  | close => simp [scanBraces, BraceState.next]
  | escaped character _ induction =>
      simp [scanBraces, BraceState.next, induction, Function.comp_def]
  | plain noQuote noEscape _ induction =>
      simp [scanBraces, BraceState.next, noQuote, noEscape, induction, Function.comp_def]

/-- Within a brace, balanced text is passed over. -/
theorem scanBraces_balanced {text : List Char} (balanced : Balanced text) {depth : Int}
    (inside : 1 ≤ depth) (rest : List Char) :
    scanBraces ⟨depth, false, false⟩ (text ++ rest) =
      (scanBraces ⟨depth, false, false⟩ rest).map (text ++ ·) := by
  induction balanced generalizing depth rest with
  | nil => simp
  | plain isPlain _ induction =>
      simp only [List.mem_cons, List.not_mem_nil, or_false, not_or] at isPlain
      simp [scanBraces, BraceState.next, isPlain, induction inside, Function.comp_def]
  | quoted isBody _ induction =>
      simp [scanBraces, BraceState.next, scanBraces_string isBody, induction inside,
        Function.comp_def]
  | braces _ _ inner outer =>
      have deeper : 1 ≤ depth + 1 := by omega
      have nonzero : depth ≠ 0 := by omega
      simp [scanBraces, BraceState.next, inner deeper, outer inside, nonzero, Function.comp_def]

/-- From a brace on, the scan ends at the brace that balances it. -/
theorem scanBraces_object {inner : List Char} (balanced : Balanced inner) (rest : List Char) :
    scanBraces {} ('{' :: (inner ++ '}' :: rest)) = some ('{' :: (inner ++ ['}'])) := by
  have passed := scanBraces_balanced balanced (le_refl 1) ('}' :: rest)
  simp [scanBraces, BraceState.next, passed]

/-- Two objects in front of one text are the same. -/
theorem object_unique {inner other rest otherRest : List Char} (balanced : Balanced inner)
    (otherBalanced : Balanced other)
    (same : inner ++ '}' :: rest = other ++ '}' :: otherRest) :
    inner = other ∧ rest = otherRest := by
  have found := scanBraces_object balanced rest
  rw [same, scanBraces_object otherBalanced otherRest] at found
  simp only [Option.some.injEq, List.cons.injEq, true_and, List.append_cancel_right_eq] at found
  subst found
  simpa using same

/-! ## The search for a fence -/

theorem dropWhile_append_of_all {keep : Char → Bool} {space text : List Char}
    (all : space.all keep) (stops : text.dropWhile keep = text) :
    (space ++ text).dropWhile keep = text := by
  rw [List.dropWhile_append_of_pos (by simpa using all), stops]

/-- What is closed ends with the brace in front of the fence. -/
theorem closeFence_some {text closed : List Char} (found : closeFence text = some closed) :
    ∃ body space after, closed = body ++ ['}'] ∧ space.all Text.isSpace ∧
      text = closed ++ (space ++ (fenceMark ++ after)) := by
  induction text generalizing closed with
  | nil => cases found
  | cons character rest induction =>
      rw [closeFence] at found
      split at found
      · next closes =>
          cases found
          rcases closes with ⟨rfl, after, follows⟩
          refine ⟨[], rest.takeWhile Text.isSpace, after, rfl, List.all_takeWhile, ?_⟩
          rw [follows, List.takeWhile_append_dropWhile]
          rfl
      · rcases Option.map_eq_some_iff.mp found with ⟨more, later, rfl⟩
        rcases induction later with ⟨body, space, after, rfl, blank, rfl⟩
        exact ⟨character :: body, space, after, rfl, blank, rfl⟩

theorem closeFence_isSome {body space after : List Char} (blank : space.all Text.isSpace) :
    (closeFence (body ++ '}' :: (space ++ (fenceMark ++ after)))).isSome := by
  induction body with
  | nil =>
      rw [List.nil_append, closeFence, dropWhile_append_of_all blank rfl,
        if_pos ⟨rfl, List.prefix_append fenceMark after⟩]
      rfl
  | cons character rest induction =>
      rw [List.cons_append, closeFence]
      split
      · rfl
      · rw [Option.isSome_map]
        exact induction

theorem fenceAt_some {text group : List Char} (found : fenceAt text = some group) :
    ∃ fenced after, Fenced group fenced ∧ text = fenced ++ after := by
  rcases Option.bind_eq_some_iff.mp found with ⟨behind, marked, found⟩
  rcases Option.bind_eq_some_iff.mp found with ⟨body, opened, found⟩
  rcases Option.map_eq_some_iff.mp found with ⟨closed, closes, rfl⟩
  rcases List.dropPrefix?_eq_some_iff.mp marked with ⟨mark, split, equal⟩
  cases eq_of_beq equal
  rcases closeFence_some closes with ⟨inner, space', after, isClosed, blank', bodySplit⟩
  have labelled : ∃ label, (label = [] ∨ label = fenceLabel) ∧
      behind = label ++ (behind.dropPrefix? fenceLabel).getD behind := by
    cases word : behind.dropPrefix? fenceLabel with
    | none => exact ⟨[], .inl rfl, rfl⟩
    | some rest =>
        rcases List.dropPrefix?_eq_some_iff.mp word with ⟨label, labelSplit, same⟩
        exact ⟨label, .inr (eq_of_beq same), labelSplit⟩
  rcases labelled with ⟨label, isLabel, labelSplit⟩
  generalize (behind.dropPrefix? fenceLabel).getD behind = rest at opened labelSplit
  have spaced : ∃ space, space.all Text.isSpace ∧ rest = space ++ '{' :: body := by
    refine ⟨rest.takeWhile Text.isSpace, List.all_takeWhile, ?_⟩
    rw [← expect_eq_some.mp opened, List.takeWhile_append_dropWhile]
  rcases spaced with ⟨space, blank, spaceSplit⟩
  refine ⟨_, after, ⟨label, space, inner, space', isLabel, blank, blank',
    congrArg ('{' :: ·) isClosed, rfl⟩, ?_⟩
  rw [split, labelSplit, spaceSplit, bodySplit]
  simp only [List.append_assoc, List.cons_append]

theorem dropPrefix_append (letters rest : List Char) :
    (letters ++ rest).dropPrefix? letters = some rest :=
  List.dropPrefix?_eq_some_iff.mpr ⟨letters, rfl, beq_self_eq_true letters⟩

/-- A label is dropped, and nothing else is. -/
theorem getD_dropPrefix_label {label space rest : List Char}
    (isLabel : label = [] ∨ label = fenceLabel) (blank : space.all Text.isSpace) :
    ((label ++ (space ++ '{' :: rest)).dropPrefix? fenceLabel).getD
      (label ++ (space ++ '{' :: rest)) = space ++ '{' :: rest := by
  rcases isLabel with rfl | rfl
  · cases word : ([] ++ (space ++ '{' :: rest)).dropPrefix? fenceLabel with
    | none => rfl
    | some behind =>
        rcases List.dropPrefix?_eq_some_iff.mp word with ⟨letters, split, equal⟩
        cases eq_of_beq equal
        cases space with
        | nil => cases split
        | cons character more =>
            have first : character = 'j' := (List.cons.inj split).1
            subst first
            cases blank
  · rw [dropPrefix_append]
    rfl

theorem fenceAt_isSome {group fenced after : List Char} (isFenced : Fenced group fenced) :
    (fenceAt (fenced ++ after)).isSome := by
  rcases isFenced with ⟨label, space, body, space', isLabel, blank, blank', rfl, rfl⟩
  have closed := @closeFence_isSome body space' after blank'
  generalize inside : body ++ '}' :: (space' ++ (fenceMark ++ after)) = rest at closed
  have whole : fenceMark ++ (label ++ (space ++ ('{' :: (body ++ ['}']) ++
      (space' ++ fenceMark)))) ++ after = fenceMark ++ (label ++ (space ++ '{' :: rest)) := by
    rw [← inside]
    simp only [List.append_assoc, List.cons_append, List.nil_append]
  have opened : expect '{' ((space ++ '{' :: rest).dropWhile Text.isSpace) = some rest := by
    rw [dropWhile_append_of_all blank rfl, expect_eq_some]
  rw [whole, fenceAt, dropPrefix_append, Option.bind_some]
  simp only [getD_dropPrefix_label isLabel blank, opened, Option.bind_some, Option.isSome_map]
  exact closed

theorem searchFence_some {text group : List Char} (found : searchFence text = some group) :
    ∃ fenced, Fenced group fenced ∧ fenced <:+: text := by
  induction text with
  | nil => cases found
  | cons character rest induction =>
      rcases Option.or_eq_some_iff.mp found with here | ⟨-, later⟩
      · rcases fenceAt_some here with ⟨fenced, after, isFenced, split⟩
        rw [split]
        exact ⟨fenced, isFenced, (List.prefix_append fenced after).isInfix⟩
      · rcases induction later with ⟨fenced, isFenced, within⟩
        exact ⟨fenced, isFenced, within.trans (List.suffix_cons character rest).isInfix⟩

theorem searchFence_isSome {text : List Char} :
    (searchFence text).isSome ↔ HasFence text := by
  constructor
  · intro found
    rcases Option.isSome_iff_exists.mp found with ⟨group, found⟩
    exact ⟨group, searchFence_some found⟩
  · rintro ⟨group, fenced, isFenced, before, after, rfl⟩
    induction before with
    | nil =>
        have here := @fenceAt_isSome _ _ after isFenced
        rw [List.nil_append]
        cases shape : fenced ++ after with
        | nil =>
            rw [shape] at here
            cases here
        | cons character rest =>
            rw [searchFence, Option.isSome_or, ← shape, here, Bool.true_or]
    | cons character rest induction =>
        rw [List.cons_append, List.cons_append, searchFence, Option.isSome_or, induction,
          Bool.or_true]

/-- What starts and ends with a character that the surroundings lack is within. -/
theorem infix_within {mark : Char} {inner before text after : List Char}
    (absentBefore : mark ∉ before) (absentAfter : mark ∉ after)
    (found : mark :: (inner ++ [mark]) <:+: before ++ (text ++ after)) :
    mark :: (inner ++ [mark]) <:+: text := by
  have inBehind : mark :: (inner ++ [mark]) <:+: text ++ after := by
    rcases List.infix_append_iff_ne_nil.mp found with within | within |
      ⟨left, right, nonempty, -, split, isSuffix, -⟩
    · exact absurd (within.subset List.mem_cons_self) absentBefore
    · exact within
    · cases left with
      | nil => exact absurd rfl nonempty
      | cons first more =>
          cases (List.cons.inj split).1
          exact absurd (isSuffix.subset List.mem_cons_self) absentBefore
  rcases List.infix_append_iff_ne_nil.mp inBehind with within | within |
    ⟨left, right, -, nonempty, split, -, isPrefix⟩
  · exact within
  · exact absurd (within.subset List.mem_cons_self) absentAfter
  · have last := congrArg List.getLast? split
    rw [List.getLast?_append_of_ne_nil left nonempty, ← List.cons_append,
      List.getLast?_concat] at last
    exact absurd (isPrefix.subset (List.mem_of_getLast? last.symm)) absentAfter

/-- A fence within prose around a text is within the text. -/
theorem HasFence.within {before text after : List Char} (absentBefore : '`' ∉ before)
    (absentAfter : '`' ∉ after) {group fenced : List Char} (isFenced : Fenced group fenced)
    (found : fenced <:+: before ++ (text ++ after)) : fenced <:+: text := by
  rcases isFenced with ⟨label, space, body, space', -, -, -, -, rfl⟩
  have shape : fenceMark ++ (label ++ (space ++ (group ++ (space' ++ fenceMark)))) =
      '`' :: ((['`', '`'] ++ (label ++ (space ++ (group ++ (space' ++ ['`', '`']))))) ++
        ['`']) := by
    simp [fenceMark]
  rw [shape] at found ⊢
  exact infix_within absentBefore absentAfter found

/-! ## The text of an object -/

/-- An object in braces, with balanced text in them. -/
def Braced (text inner : List Char) : Prop :=
  text = '{' :: (inner ++ ['}']) ∧ Balanced inner

theorem words_no_object : ∀ word ∈ words, ∀ fields, word.2 ≠ .obj fields := by
  simp [words]

theorem scanAtom_no_object {numerals : NumberReader} {text rest : List Char}
    {fields : List (String × Json)} :
    scanAtom numerals text ≠ some (.obj fields, rest) := by
  intro scanned
  rcases Option.or_eq_some_iff.mp scanned with word | ⟨-, number⟩
  · rcases List.exists_of_findSome?_eq_some word with ⟨entry, member, found⟩
    rcases Option.map_eq_some_iff.mp found with ⟨behind, -, same⟩
    exact words_no_object entry member fields (congrArg Prod.fst same)
  · rcases Option.bind_eq_some_iff.mp number with ⟨⟨whole, behind⟩, -, number⟩
    simp only at number
    split at number
    · split at number <;> cases number
    · cases number

theorem IsObjectText.braced {text : String} (isObject : IsObjectText text) :
    ∃ inner, Braced text.toList inner := by
  rcases isObject with ⟨numerals, fuel, fields, scanned⟩
  cases fuel with
  | zero => cases scanned
  | succ fuel =>
      cases shape : text.toList with
      | nil =>
          rw [shape] at scanned
          cases scanned
      | cons character tail =>
          rw [shape] at scanned
          by_cases brace : character = '{'
          · subst brace
            rcases (scans numerals fuel).object scanned with ⟨inner, split, balanced⟩
            exact ⟨inner, congrArg ('{' :: ·) split, balanced⟩
          · rw [scanValue, if_neg brace] at scanned
            split at scanned
            · rcases Option.map_eq_some_iff.mp scanned with ⟨_, _, same⟩
              cases same
            · split at scanned
              · split at scanned
                · cases scanned
                · rcases Option.map_eq_some_iff.mp scanned with ⟨_, _, same⟩
                  cases same
              · exact absurd scanned scanAtom_no_object

/-! ## Prose around it -/

theorem isSpace_of_isGap {character : Char} (gap : isGap character) :
    Text.isSpace character = true := by
  simp only [isGap, Bool.or_eq_true, decide_eq_true_eq] at gap
  rcases gap with ((rfl | rfl) | rfl) | rfl <;> rfl

/-- What the text is stripped to. -/
theorem strip_around {before after text : String} {inner : List Char}
    (braced : Braced text.toList inner) :
    (Text.strip (before ++ text ++ after)).toList =
      before.toList.dropWhile Text.isSpace ++ (text.toList ++
        (after.toList.reverse.dropWhile Text.isSpace).reverse) := by
  have front : (before.toList ++ (text.toList ++ after.toList)).dropWhile Text.isSpace =
      before.toList.dropWhile Text.isSpace ++ (text.toList ++ after.toList) := by
    rw [List.dropWhile_append]
    split
    · next blank =>
        rw [List.isEmpty_iff.mp blank, braced.1]
        rfl
    · rfl
  have back : (after.toList.reverse ++ (text.toList.reverse ++
      (before.toList.dropWhile Text.isSpace).reverse)).dropWhile Text.isSpace =
        after.toList.reverse.dropWhile Text.isSpace ++ (text.toList.reverse ++
          (before.toList.dropWhile Text.isSpace).reverse) := by
    rw [List.dropWhile_append]
    split
    · next blank =>
        rw [List.isEmpty_iff.mp blank, braced.1]
        simp [Text.isSpace]
    · rfl
  rw [Text.strip, String.toList_ofList, String.toList_append, String.toList_append,
    List.append_assoc, front, List.reverse_append, List.reverse_append, List.append_assoc, back]
  simp

theorem skipGap_ne_nil {text : List Char} {character : Char} (member : character ∈ text)
    (noGap : isGap character = false) : skipGap text ≠ [] := by
  intro empty
  rw [skipGap, List.dropWhile_eq_nil_iff] at empty
  rw [empty character member] at noGap
  cases noGap

/-- Where something is left behind each value, the text is not read. -/
theorem loads_eq_none {numerals : NumberReader} {text : String}
    (left : ∀ fuel value rest,
      scanValue numerals fuel (skipGap text.toList) = some (value, rest) → skipGap rest ≠ []) :
    loads numerals text = none := by
  rw [loads, Option.bind_eq_bind, Option.bind_eq_none_iff]
  rintro ⟨value, rest⟩ scanned
  exact if_neg (left _ value rest scanned)

theorem scanWhole_eq_none {character : Char} {rest : List Char}
    (noDigit : character.isDigit = false) : scanWhole (character :: rest) = none := by
  unfold scanWhole
  split
  · next same => cases (List.cons.inj same).1; cases noDigit
  · next same =>
      cases (List.cons.inj same).1
      rw [if_neg (by simp [noDigit])]
  · rfl

variable {numerals : NumberReader} {inner : List Char}

/-- In front of a brace, prose is no number. -/
theorem scanNumber_prose {before rest : List Char}
    (prose : ∀ character ∈ before, character.isDigit = false) :
    scanNumber numerals (before ++ '{' :: rest) = none := by
  have noWhole {text : List Char} (noDigit : ∀ character ∈ text, character.isDigit = false) :
      scanWhole (text ++ '{' :: rest) = none := by
    cases text with
    | nil => exact scanWhole_eq_none rfl
    | cons first more => exact scanWhole_eq_none (noDigit first List.mem_cons_self)
  have unsigned : scanWhole (scanSign (before ++ '{' :: rest)).2 = none := by
    unfold scanSign
    split
    · next behind same =>
        cases before with
        | nil => cases same
        | cons first more =>
            cases same
            exact noWhole fun character member =>
              prose character (List.mem_cons_of_mem _ member)
    · exact noWhole prose
  rw [scanNumber]
  simp only [unsigned, Option.bind_none]

/-- Prose in front of an object: at most a word of it is read. -/
theorem loads_prose_before {text : String} {first : Char} {before rest : List Char}
    (split : text.toList = first :: before ++ '{' :: rest)
    (prose : ∀ character ∈ first :: before,
      character ∉ ['{', '}', '[', ']', '"', '\'', '`'] ∧ character.isDigit = false)
    (begins : isGap first = false) : loads numerals text = none := by
  have plain := (prose first List.mem_cons_self).1
  simp only [List.mem_cons, List.not_mem_nil, or_false, not_or] at plain
  apply loads_eq_none
  intro fuel value left scanned
  have start : skipGap text.toList = first :: before ++ '{' :: rest := by
    rw [split, skipGap, List.cons_append, List.dropWhile_cons_of_neg (by simp [begins])]
  rw [start] at scanned
  cases fuel with
  | zero => cases scanned
  | succ fuel =>
      rw [List.cons_append, scanValue, if_neg plain.2.2.2.2.1, if_neg plain.1,
        if_neg plain.2.2.1, ← List.cons_append] at scanned
      rcases Option.or_eq_some_iff.mp scanned with word | ⟨-, number⟩
      · rcases List.exists_of_findSome?_eq_some word with ⟨entry, member, found⟩
        rcases Option.map_eq_some_iff.mp found with ⟨behind, dropped, same⟩
        cases same
        rcases List.dropPrefix?_eq_some_iff.mp dropped with ⟨letters, parts, equal⟩
        cases eq_of_beq equal
        have brace : '{' ∈ entry.1 ++ left := by
          rw [← parts]
          exact List.mem_append_right _ List.mem_cons_self
        rcases List.mem_append.mp brace with inWord | behindWord
        · exact absurd (by decide) ((words_plain entry member).2 '{' inWord)
        · exact skipGap_ne_nil behindWord rfl
      · rw [scanNumber_prose fun character member => (prose character member).2] at number
        cases number

/-- Prose behind an object is left over. -/
theorem loads_prose_behind {text : String} {after : List Char}
    (split : text.toList = '{' :: (inner ++ '}' :: after)) (balanced : Balanced inner)
    {character : Char} (member : character ∈ after) (noGap : isGap character = false) :
    loads numerals text = none := by
  apply loads_eq_none
  intro fuel value left scanned
  have start : skipGap text.toList = '{' :: (inner ++ '}' :: after) := by
    rw [split]
    rfl
  rw [start] at scanned
  cases fuel with
  | zero => cases scanned
  | succ fuel =>
      rcases (scans numerals fuel).object scanned with ⟨other, same, otherBalanced⟩
      rw [← (object_unique balanced otherBalanced same).2]
      exact skipGap_ne_nil member noGap

/-! ## The extraction -/

/-- What is left of prose when spaces are taken off: nothing of a blank one, and else it begins
with no space. -/
theorem dropWhile_space (text : List Char) :
    text.all Text.isSpace ∧ text.dropWhile Text.isSpace = [] ∨
      ∃ first more, text.dropWhile Text.isSpace = first :: more ∧ Text.isSpace first = false ∧
        text.all Text.isSpace = false := by
  cases shape : text.dropWhile Text.isSpace with
  | nil =>
      rw [List.dropWhile_eq_nil_iff] at shape
      exact .inl ⟨List.all_eq_true.mpr shape, rfl⟩
  | cons first more =>
      have begins := @List.head_dropWhile_not _ Text.isSpace text (by simp [shape])
      simp only [shape, List.head_cons] at begins
      refine .inr ⟨first, more, rfl, begins, ?_⟩
      rw [List.all_eq_false]
      refine ⟨first, (List.dropWhile_sublist Text.isSpace).subset ?_, by simp [begins]⟩
      rw [shape]
      exact List.mem_cons_self

section Around

variable {object before after : String}

/-- A text that is read has only spaces around the object. -/
theorem blank_of_read (braced : Braced object.toList inner) (proseBefore : Prose before)
    (read : (loads numerals (Text.strip (before ++ object ++ after))).isSome) :
    Text.isBlank before ∧ Text.isBlank after := by
  have whole := @strip_around before after object inner braced
  rw [braced.1] at whole
  rcases dropWhile_space before.toList with ⟨blank, nothing⟩ | ⟨first, more, shape, begins, -⟩
  · refine ⟨blank, ?_⟩
    rcases dropWhile_space after.toList.reverse with
      ⟨blankAfter, -⟩ | ⟨last, more, shape, ends, -⟩
    · rw [List.all_reverse] at blankAfter
      exact blankAfter
    · have noGap : isGap last = false := by
        by_contra gap
        rw [isSpace_of_isGap (by simpa using gap)] at ends
        cases ends
      rw [nothing, shape, List.nil_append, List.cons_append, List.append_assoc] at whole
      rw [loads_prose_behind whole braced.2 (by simp) noGap] at read
      cases read
  · have noGap : isGap first = false := by
      by_contra gap
      rw [isSpace_of_isGap (by simpa using gap)] at begins
      cases begins
    have prose : ∀ character ∈ first :: more,
        character ∉ ['{', '}', '[', ']', '"', '\'', '`'] ∧ character.isDigit = false := by
      intro character member
      rw [← shape] at member
      exact proseBefore character ((List.dropWhile_sublist _).subset member)
    rw [shape] at whole
    rw [loads_prose_before whole prose noGap] at read
    cases read

theorem strip_blank (braced : Braced object.toList inner) (blank : Text.isBlank before)
    (blankAfter : Text.isBlank after) : Text.strip (before ++ object ++ after) = object := by
  have whole := @strip_around before after object inner braced
  have front : before.toList.dropWhile Text.isSpace = [] :=
    List.dropWhile_eq_nil_iff.mpr (List.all_eq_true.mp blank)
  have back : after.toList.reverse.dropWhile Text.isSpace = [] := by
    rw [List.dropWhile_eq_nil_iff, ← List.all_eq_true, List.all_reverse]
    exact blankAfter
  rw [front, back, List.reverse_nil, List.append_nil, List.nil_append] at whole
  exact String.toList_inj.mp whole

/-- A text that is not read gives the object unless there is a fence in it. -/
theorem extract_of_unread (braced : Braced object.toList inner) (proseBefore : Prose before)
    (proseAfter : Prose after)
    (unread : loads numerals (Text.strip (before ++ object ++ after)) = none) :
    extractJsonBlock numerals (before ++ object ++ after) = object ↔
      ¬ HasFence object.toList := by
  have whole := @strip_around before after object inner braced
  have absentBefore : ∀ mark ∈ ['`', '{'], mark ∉ before.toList.dropWhile Text.isSpace := by
    intro mark isMark member
    have prose := (proseBefore mark ((List.dropWhile_sublist _).subset member)).1
    simp only [List.mem_cons, List.not_mem_nil, or_false] at isMark
    rcases isMark with rfl | rfl <;> exact prose (by decide)
  have absentAfter : '`' ∉ (after.toList.reverse.dropWhile Text.isSpace).reverse := by
    intro member
    have held := (List.dropWhile_sublist Text.isSpace).subset (List.mem_reverse.mp member)
    exact (proseAfter '`' (List.mem_reverse.mp held)).1 (by decide)
  rw [extractJsonBlock]
  simp only [unread]
  cases search : searchFence (Text.strip (before ++ object ++ after)).toList with
  | some group =>
      rcases searchFence_some search with ⟨fenced, isFenced, found⟩
      rw [whole] at found
      have within := HasFence.within (absentBefore '`' (by decide)) absentAfter isFenced found
      refine iff_of_false ?_ (not_not_intro ⟨group, fenced, isFenced, within⟩)
      rintro same
      have short := within.length_le
      rcases isFenced with ⟨label, space, body, space', -, -, -, -, rfl⟩
      rw [← same, String.toList_ofList] at short
      simp only [List.length_append, fenceMark, List.length_cons] at short
      omega
  | none =>
      have noFence : ¬ HasFence object.toList := by
        rintro ⟨group, fenced, isFenced, within⟩
        have found : (searchFence (Text.strip (before ++ object ++ after)).toList).isSome := by
          rw [searchFence_isSome, whole]
          exact ⟨group, fenced, isFenced, within.trans (List.infix_append' _ _ _)⟩
        rw [search] at found
        cases found
      have start : (Text.strip (before ++ object ++ after)).toList.dropWhile (· ≠ '{') =
          '{' :: (inner ++ '}' :: (after.toList.reverse.dropWhile Text.isSpace).reverse) := by
        rw [whole, braced.1, List.dropWhile_append_of_pos]
        · simp
        · intro character member
          rw [decide_eq_true_iff]
          rintro rfl
          exact absentBefore '{' (by decide) member
      simp only [start, scanBraces_object braced.2]
      refine iff_of_true ?_ noFence
      rw [← braced.1, String.ofList_toList]

end Around

/-- An object in prose is extracted as it stands if and only if it is read by itself, with only
spaces around it, or no fenced group stands in it. -/
theorem extractJsonBlock_eq_iff (numerals : NumberReader) {object : String}
    (isObject : IsObjectText object) {before after : String} (proseBefore : Prose before)
    (proseAfter : Prose after) :
    extractJsonBlock numerals (before ++ object ++ after) = object ↔
      (Text.isBlank before ∧ Text.isBlank after ∧ (loads numerals object).isSome) ∨
        ¬ HasFence object.toList := by
  rcases isObject.braced with ⟨inner, braced⟩
  cases read : loads numerals (Text.strip (before ++ object ++ after)) with
  | some value =>
      have blank := @blank_of_read numerals inner object before after braced proseBefore
        (by rw [read]; rfl)
      have stripped := strip_blank braced blank.1 blank.2
      refine iff_of_true ?_ (.inl ⟨blank.1, blank.2, ?_⟩)
      · rw [extractJsonBlock]
        simp only [read]
        exact stripped
      · rw [← stripped, read]
        rfl
  | none =>
      rw [extract_of_unread braced proseBefore proseAfter read]
      constructor
      · exact .inr
      · rintro (⟨blank, blankAfter, found⟩ | noFence)
        · rw [strip_blank braced blank blankAfter] at read
          rw [read] at found
          cases found
        · exact noFence

/-- An object whose string holds a fenced group. -/
def fencedObject : String := "\x7b\"a\": \"```\x7b\x7d```\"\x7d"

/-- The whole text is scanned as an object. -/
def scansObject (numerals : NumberReader) (fuel : Nat) (text : String) : Bool :=
  match scanValue numerals fuel text.toList with
  | some (.obj _, []) => true
  | _ => false

theorem isObjectText_of_scans {numerals : NumberReader} {fuel : Nat} {text : String}
    (isScanned : scansObject numerals fuel text) : IsObjectText text := by
  unfold scansObject at isScanned
  split at isScanned
  · next fields scanned => exact ⟨numerals, fuel, fields, scanned⟩
  · cases isScanned

theorem fencedObject_isObject : IsObjectText fencedObject :=
  @isObjectText_of_scans ⟨id, 4300⟩ 60 _ (by decide +kernel)

theorem prose_of_all {text : String}
    (checked : (text.toList.all fun character =>
      !(['{', '}', '[', ']', '"', '\'', '`'].contains character) && !character.isDigit) = true) :
    Prose text := by
  intro character member
  have plain := List.all_eq_true.mp checked character member
  simpa using plain

theorem extractJsonBlock_takes_fence :
    IsObjectText fencedObject ∧ Prose "Sure: " ∧ Prose "" ∧
      extractJsonBlock ⟨id, 4300⟩ ("Sure: " ++ fencedObject ++ "") ≠ fencedObject :=
  ⟨fencedObject_isObject, prose_of_all (by decide), prose_of_all (by decide),
    by decide +kernel⟩

/-- The same object by itself is extracted. -/
theorem extractJsonBlock_fencedObject :
    extractJsonBlock ⟨id, 4300⟩ ("" ++ fencedObject ++ "\n") = fencedObject :=
  (extractJsonBlock_eq_iff ⟨id, 4300⟩ fencedObject_isObject (prose_of_all (by decide))
    (prose_of_all (by decide))).mpr (.inl ⟨by decide, by decide, by decide +kernel⟩)

end Raphael.Intelligence
