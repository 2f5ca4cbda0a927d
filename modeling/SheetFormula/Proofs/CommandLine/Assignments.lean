import Mathlib
import SheetFormula.CommandLine.Assignment
import SheetFormula.Proofs.Number.PlainNumbers

/-!
# What assignments mean

An argument without `=`, or with nothing before the first one, is refused
(`Assignment.read_eq_error_iff`); what stands before the first one is the name, whatever the value
part holds (`Assignment.read_of_split`). Every value part falls under one of four rules: the inside
of a text in quotes, a boolean word in any case, a plain number, and the text as it stands. Quotes
come first, so every string can be written. `Assignment.read_and_value` puts this together.

Of the four rules the last three exclude each other (`Assignment.value_cases`), which makes each of
them an equivalence: a part without quotes is a boolean if its lower case is the word for it
(`Assignment.value_eq_boolean_iff`), and any part is a number if it is a plain one
(`Assignment.value_eq_number_iff`).

That a text looks like a plain number says that it is the text of one
(`Assignment.exists_of_isPlainNumber`), and then `SheetFormula.Proofs.Number.PlainNumbers` gives
its double. So no plain number fails to be read, and none is NaN: that a number which cannot be
read is taken as it stands is a case that does not occur.

Words are compared in lower case. `Assignment.InLowercase` allows every lower case that Unicode has
had: of the characters beyond ASCII only two have ASCII letters in theirs, and no word has those
letters. By `Assignment.InLowercase.eq_word_iff` it is enough to look at the ASCII letters.
-/

namespace SheetFormula

namespace Assignment

open Number

/-! ## Lower case -/

/-- What stands for `c` in a text in lower case. An ASCII character has one lower case. Of the
others only the capital I with a dot and the Kelvin sign have an ASCII character in theirs, which
is `i` for the one and `k` for the other. -/
def LowercaseOf (c : Char) (form : List Char) : Prop :=
  if c.toNat < 128 then form = [c.toLower]
  else form ≠ [] ∧ ∀ d ∈ form, d.toNat < 128 →
    c.toNat = 0x130 ∧ d = 'i' ∨ c.toNat = 0x212A ∧ d = 'k'

/-- A text and the same text in lower case. -/
inductive InLowercase : List Char → List Char → Prop where
  | nil : InLowercase [] []
  | cons {c : Char} {form text lower : List Char} (first : LowercaseOf c form)
      (others : InLowercase text lower) : InLowercase (c :: text) (form ++ lower)

theorem toLower_of_not_ascii {c : Char} (notAscii : ¬c.toNat < 128) : c.toLower = c := by
  refine Char.toLower_eq_of_not_isUpper ?_
  simp only [Char.isUpper, decide_eq_true_eq, ge_iff_le, UInt32.le_iff_toNat_le, not_and]
  intro _ below
  exact notAscii (Nat.lt_of_le_of_lt below (by decide))

/-- The ASCII letters alone in lower case are one of the lower cases of a text. -/
theorem inLowercase_map_toLower : ∀ text : List Char, InLowercase text (text.map Char.toLower)
  | [] => .nil
  | c :: text => by
    have first : LowercaseOf c [c.toLower] := by
      unfold LowercaseOf
      split
      · rfl
      · next notAscii =>
        rw [toLower_of_not_ascii notAscii]
        refine ⟨List.cons_ne_nil _ _, fun d mem ascii => ?_⟩
        obtain rfl := List.mem_singleton.mp mem
        exact absurd ascii notAscii
    exact .cons first (inLowercase_map_toLower text)

/-- All lower cases of a text agree on whether it is a word of ASCII letters other than `i` and
`k`. -/
theorem InLowercase.eq_word_iff {text lower : List Char} (h : InLowercase text lower) :
    ∀ {word : List Char}, (∀ d ∈ word, d.toNat < 128 ∧ d ≠ 'i' ∧ d ≠ 'k') →
      (lower = word ↔ text.map Char.toLower = word) := by
  induction h with
  | nil => exact fun _ => Iff.rfl
  | @cons c form text lower first others ih =>
    intro word plain
    unfold LowercaseOf at first
    split at first
    · subst first
      cases word with
      | nil => simp
      | cons w word =>
        have ih := ih fun d mem => plain d (List.mem_cons_of_mem _ mem)
        simp [ih]
    · next notAscii =>
      -- Beyond ASCII no lower case begins with a letter of the word: both sides are false.
      obtain ⟨d, form, rfl⟩ := List.exists_cons_of_ne_nil first.1
      cases word with
      | nil => simp
      | cons w word =>
        obtain ⟨ascii, notI, notK⟩ := plain w List.mem_cons_self
        have notFirst : d ≠ w := by
          rintro rfl
          rcases first.2 d List.mem_cons_self ascii with ⟨-, i⟩ | ⟨-, k⟩
          · exact notI i
          · exact notK k
        have notSame : c.toLower ≠ w := by
          rw [toLower_of_not_ascii notAscii]
          rintro rfl
          exact notAscii ascii
        simp [notFirst, notSame]

theorem boolean?_eq_some_iff {text : List Char} {b : Bool} :
    boolean? text = some b ↔ text.map Char.toLower = (Value.booleanText b).toList := by
  rw [← String.ofList_inj, String.ofList_toList]
  unfold boolean?
  cases b with
  | false => split <;> simp_all [Value.booleanText]
  | true => split <;> simp_all [Value.booleanText]

theorem boolean?_eq_some_iff_of_inLowercase {text lower : List Char} (h : InLowercase text lower)
    {b : Bool} : boolean? text = some b ↔ lower = (Value.booleanText b).toList := by
  have plain : ∀ d ∈ (Value.booleanText b).toList, d.toNat < 128 ∧ d ≠ 'i' ∧ d ≠ 'k' := by
    cases b <;> simp [Value.booleanText]
  rw [boolean?_eq_some_iff, h.eq_word_iff plain]

/-! ## Quotes -/

/-- The text stands between quotes of one kind. -/
def IsQuoted (text : List Char) : Prop :=
  ∃ quote inner, (quote = '"' ∨ quote = '\'') ∧ text = quote :: (inner ++ [quote])

theorem unquote?_quoted {quote : Char} (known : quote = '"' ∨ quote = '\'') (inner : List Char) :
    unquote? (quote :: (inner ++ [quote])) = some inner := by
  simp [unquote?, known]

theorem isQuoted_of_unquote? {text inner : List Char} (h : unquote? text = some inner) :
    IsQuoted text := by
  unfold unquote? at h
  split at h
  · next first rest =>
    split_ifs at h with quoted
    obtain ⟨before, rfl⟩ := List.getLast?_eq_some_iff.mp quoted.2
    exact ⟨first, before, quoted.1, rfl⟩
  · cases h

/-! ## Plain numbers -/

theorem exists_of_isPlainNumber {text : List Char} (h : isPlainNumber text = true) :
    ∃ n : PlainNumber, n.WellFormed ∧ n.Closed ∧ n.text = text := by
  obtain ⟨sign, signed, -, known⟩ := Json.exists_sign text
  have split := List.takeWhile_append_dropWhile (p := Char.isDigit) (l := (splitSign text).2)
  have digits : ∀ c ∈ (splitSign text).2.takeWhile Char.isDigit, c.isDigit = true :=
    fun c mem => List.mem_takeWhile_imp mem
  unfold isPlainNumber at h
  dsimp only at h
  rw [Bool.and_eq_true, Bool.not_eq_true', List.isEmpty_eq_false_iff] at h
  obtain ⟨nonempty, h⟩ := h
  cases after : (splitSign text).2.dropWhile Char.isDigit with
  | nil =>
    rw [after, List.append_nil] at split
    rw [split] at nonempty digits
    refine ⟨⟨sign, (splitSign text).2, none⟩, ⟨known, nonempty, digits, by simp⟩, ?_, ?_⟩
    · simp [PlainNumber.Closed]
    · simp [PlainNumber.text, PlainNumber.magnitudeText, PlainNumber.fractionText, ← signed]
  | cons mark decimals =>
    rw [after] at split h
    simp only [Bool.and_eq_true, Bool.or_eq_true, beq_iff_eq, Bool.not_eq_true',
      List.isEmpty_eq_false_iff, List.all_eq_true] at h
    obtain ⟨⟨separator, some_decimal⟩, isDigit⟩ := h
    refine ⟨⟨sign, (splitSign text).2.takeWhile Char.isDigit, some (mark, decimals)⟩,
      ⟨known, nonempty, digits, ?_⟩, ?_, ?_⟩
    · rintro _ ⟨⟩
      exact ⟨separator, isDigit⟩
    · rintro _ ⟨⟩
      exact some_decimal
    · rw [PlainNumber.text, PlainNumber.magnitudeText, PlainNumber.fractionText, split, ← signed]

section PlainNumber

variable {n : PlainNumber}

theorem isPlainNumber_text (h : n.WellFormed) (closed : n.Closed) :
    isPlainNumber n.text = true := by
  have splitted := Json.splitSign_append h.sign_eq h.isDigit_whole h.whole_ne_nil
    (PlainNumber.fractionText n.fraction)
  obtain ⟨run, after⟩ := Json.span_isDigit_append h.isDigit_whole h.endsRun_fractionText
  unfold isPlainNumber PlainNumber.text PlainNumber.magnitudeText
  rw [splitted]
  dsimp only
  rw [run, after]
  cases hf : n.fraction with
  | none => simp [PlainNumber.fractionText, h.whole_ne_nil]
  | some p =>
    obtain ⟨separator, isDigit⟩ := h.isDigit_fraction p hf
    have some_decimal := closed p hf
    simpa [PlainNumber.fractionText, h.whole_ne_nil, separator, some_decimal] using isDigit

/-- A plain number begins with no quote. -/
theorem unquote?_plainNumber (h : n.WellFormed) : unquote? n.text = none := by
  refine Option.eq_none_iff_forall_ne_some.mpr fun inner quoted => ?_
  obtain ⟨quote, inner, known, text⟩ := isQuoted_of_unquote? quoted
  have mem : quote ∈ n.text := by simp [text]
  rcases known with rfl | rfl
  · simpa using h.isDigit_or_mem_of_mem_text mem
  · simpa using h.isDigit_or_mem_of_mem_text mem

/-- A plain number has a digit, so it is no word. -/
theorem boolean?_plainNumber (h : n.WellFormed) : boolean? n.text = none := by
  refine Option.eq_none_iff_forall_ne_some.mpr fun b word => ?_
  obtain ⟨d, rest, first, digit⟩ := h.exists_whole_eq_cons
  have letters : ∀ c ∈ (Value.booleanText b).toList, c.isAlpha = true := by
    cases b <;> simp [Value.booleanText]
  have mem : d.toLower ∈ (Value.booleanText b).toList := by
    rw [← boolean?_eq_some_iff.mp word]
    exact List.mem_map_of_mem (by simp [PlainNumber.text, first])
  have letter := letters _ mem
  rw [Char.isAlpha_toLower_eq_isAlpha, isAlpha_of_isDigit digit] at letter
  cases letter

theorem value_plainNumber (h : n.WellFormed) (closed : n.Closed) :
    value n.text = .number n.value := by
  unfold value
  rw [unquote?_plainNumber h, boolean?_plainNumber h, isPlainNumber_text h closed, if_pos rfl,
    h.readComma?_text]

end PlainNumber

/-! ## Values -/

theorem value_quoted {quote : Char} (known : quote = '"' ∨ quote = '\'') (inner : List Char) :
    value (quote :: (inner ++ [quote])) = .string (String.ofList inner) := by
  rw [value, unquote?_quoted known]

section NotQuoted

variable {part : List Char}

theorem unquote?_eq_none (notQuoted : ¬IsQuoted part) : unquote? part = none :=
  Option.eq_none_iff_forall_ne_some.mpr fun _ quoted => notQuoted (isQuoted_of_unquote? quoted)

/-- What is not quoted is the boolean that it is a word for, or the number that it is, or itself. -/
theorem value_cases (notQuoted : ¬IsQuoted part) :
    (∃ b, boolean? part = some b ∧ value part = .boolean b) ∨
    (boolean? part = none ∧ ∃ n : PlainNumber, n.WellFormed ∧ n.Closed ∧ n.text = part ∧
      value part = .number n.value) ∨
    (boolean? part = none ∧ isPlainNumber part = false ∧
      value part = .string (String.ofList part)) := by
  cases word : boolean? part with
  | some b =>
    refine .inl ⟨b, rfl, ?_⟩
    rw [value, unquote?_eq_none notQuoted, word]
  | none =>
    cases plain : isPlainNumber part with
    | true =>
      obtain ⟨n, wellFormed, closed, rfl⟩ := exists_of_isPlainNumber plain
      exact .inr (.inl ⟨rfl, n, wellFormed, closed, rfl, value_plainNumber wellFormed closed⟩)
    | false =>
      refine .inr (.inr ⟨rfl, rfl, ?_⟩)
      rw [value, unquote?_eq_none notQuoted, word, plain]
      rfl

/-- It is a boolean as its lower case says. -/
theorem value_eq_boolean_iff (notQuoted : ¬IsQuoted part) {lower : List Char}
    (h : InLowercase part lower) {b : Bool} :
    value part = .boolean b ↔ lower = (Value.booleanText b).toList := by
  rw [← boolean?_eq_some_iff_of_inLowercase h]
  rcases value_cases notQuoted with ⟨a, word, same⟩ | ⟨noWord, n, -, -, -, same⟩ | ⟨noWord, -, same⟩
  · simp [word, same]
  · simp [noWord, same]
  · simp [noWord, same]

end NotQuoted

/-- It is a number if it is a plain one. -/
theorem value_eq_number_iff {part : List Char} {x : Float} : value part = .number x ↔
    ∃ n : PlainNumber, n.WellFormed ∧ n.Closed ∧ n.text = part ∧ n.value = x := by
  constructor
  · intro same
    by_cases quoted : IsQuoted part
    · obtain ⟨quote, inner, known, rfl⟩ := quoted
      rw [value_quoted known] at same
      cases same
    rcases value_cases quoted with ⟨b, -, other⟩ | ⟨-, n, wellFormed, closed, text, number⟩ |
        ⟨-, -, other⟩
    · cases other.symm.trans same
    · exact ⟨n, wellFormed, closed, text, Value.number.inj (number.symm.trans same)⟩
    · cases other.symm.trans same
  · rintro ⟨n, wellFormed, closed, rfl, rfl⟩
    exact value_plainNumber wellFormed closed

/-! ## Names -/

theorem span_name {name : List Char} (free : '=' ∉ name) (part : List Char) :
    (name ++ '=' :: part).takeWhile (· != '=') = name ∧
      (name ++ '=' :: part).dropWhile (· != '=') = '=' :: part := by
  have others : ∀ c ∈ name, (c != '=') = true := fun c mem => by
    simpa using fun same : c = '=' => free (same ▸ mem)
  rw [List.takeWhile_append_of_pos others, List.dropWhile_append_of_pos others]
  simp

theorem read_of_split {text : String} {name part : List Char}
    (split : text.toList = name ++ '=' :: part) (free : '=' ∉ name) (nonempty : name ≠ []) :
    read text = .ok (String.ofList name, value part) := by
  obtain ⟨before, after⟩ := span_name free part
  unfold read
  dsimp only
  rw [split, before, after]
  simp [nonempty]

theorem read_eq_error_iff {text : String} : (∃ message, read text = .error message) ↔
    '=' ∉ text.toList ∨ text.toList.head? = some '=' := by
  by_cases mem : '=' ∈ text.toList
  · obtain ⟨name, part, split, free⟩ := List.eq_append_cons_of_mem mem
    cases name with
    | nil =>
      refine iff_of_true ⟨"missing variable name in '" ++ text ++ "'", ?_⟩ (.inr (by simp [split]))
      unfold read
      dsimp only
      rw [split]
      rfl
    | cons c name =>
      have notFirst : c ≠ '=' := fun same => free (by simp [same])
      refine iff_of_false ?_ (by simp [split, notFirst])
      rw [read_of_split split free (List.cons_ne_nil _ _)]
      rintro ⟨message, done⟩
      cases done
  · have none : text.toList.dropWhile (· != '=') = [] := by
      rw [List.dropWhile_eq_nil_iff]
      intro c inside
      simpa using fun same : c = '=' => mem (same ▸ inside)
    have refused : ∃ message, read text = .error message := by
      unfold read
      dsimp only
      rw [none]
      exact ⟨_, rfl⟩
    exact iff_of_true refused (.inl mem)

/-- What an argument assigns. It is refused if and only if no name stands before an `=`; the name
ends at the first one. The inside of a value part in quotes is a string as it stands. Without
quotes the value is the boolean that the part is a word for in any case, or the number that it is,
or else the part as it stands. Numbers are not NaN, and every plain number is one. -/
theorem read_and_value (text : String) :
    ((∃ message, read text = .error message) ↔
      '=' ∉ text.toList ∨ text.toList.head? = some '=') ∧
    (∀ name part, name ≠ [] → '=' ∉ name → text.toList = name ++ '=' :: part →
      read text = .ok (String.ofList name, value part)) ∧
    (∀ quote s, quote = '"' ∨ quote = '\'' →
      value (quote :: (s ++ [quote])) = .string (String.ofList s)) ∧
    (∀ part, ¬IsQuoted part →
      (∀ lower, InLowercase part lower →
        ∀ b, value part = .boolean b ↔ lower = (Value.booleanText b).toList) ∧
      (∀ x, value part = .number x ↔
        ∃ n : PlainNumber, n.WellFormed ∧ n.Closed ∧ n.text = part ∧ n.value = x) ∧
      ((∀ b, value part ≠ .boolean b) → (∀ x, value part ≠ .number x) →
        value part = .string (String.ofList part))) ∧
    (∀ part x, value part = .number x → x.isNaN = false) ∧
    ∀ part, isPlainNumber part = true → (readComma? part).isSome = true := by
  refine ⟨read_eq_error_iff, fun name part nonempty free split => read_of_split split free nonempty,
    fun quote s known => value_quoted known s, fun part notQuoted =>
      ⟨fun lower h b => value_eq_boolean_iff notQuoted h, fun x => value_eq_number_iff, ?_⟩,
    fun part x number => ?_, fun part plain => ?_⟩
  · intro notBoolean notNumber
    rcases value_cases notQuoted with ⟨b, -, boolean⟩ | ⟨-, n, -, -, -, number⟩ | ⟨-, -, string⟩
    · exact absurd boolean (notBoolean b)
    · exact absurd number (notNumber _)
    · exact string
  · obtain ⟨n, -, -, -, rfl⟩ := value_eq_number_iff.mp number
    exact n.isNaN_value
  · obtain ⟨n, wellFormed, -, rfl⟩ := exists_of_isPlainNumber plain
    rw [wellFormed.readComma?_text]
    rfl

/-- A comma is a decimal point, a second one makes a string, and in quotes a word is no boolean. -/
theorem read_and_value_negativeDecimal :
    read "x=-2,5" = .ok ("x", value "-2,5".toList) ∧
    value "-2,5".toList = .number (-2.5) ∧
    (∀ x, value "-2,5".toList = .number x → x.isNaN = false) ∧
    read "x='=TRUE'" = .ok ("x", value "'=TRUE'".toList) ∧
    value "'=TRUE'".toList = .string "=TRUE" ∧
    value "TRUE".toList = .boolean true ∧
    value "1,2,3".toList = .string "1,2,3" := by
  have notQuoted {c : Char} {rest : List Char} (first : c ≠ '"' ∧ c ≠ '\'') :
      ¬IsQuoted (c :: rest) := by
    rintro ⟨quote, inner, known, text⟩
    obtain ⟨rfl, -⟩ := List.cons.inj text
    exact known.elim first.1 first.2
  obtain ⟨-, names, -, unquoted, numbers, -⟩ := read_and_value "x=-2,5"
  obtain ⟨-, names', quoted, -⟩ := read_and_value "x='=TRUE'"
  refine ⟨names ['x'] _ (by decide) (by decide) (by decide), ?_, numbers _,
    names' ['x'] _ (by decide) (by decide) (by decide), quoted '\'' "=TRUE".toList (.inr rfl),
    ?_, ?_⟩
  · have decimal := (unquoted "-2,5".toList (notQuoted (by decide))).2.1 (-2.5)
    refine decimal.mpr ⟨⟨some '-', ['2'], some (',', ['5'])⟩, ?_, ?_, ?_, ?_⟩
    · exact ⟨by simp, by simp, by simp, by simp⟩
    · simp [PlainNumber.Closed]
    · rfl
    · rfl
  · have word := (unquoted "TRUE".toList (notQuoted (by decide))).1 _ (inLowercase_map_toLower _)
    exact (word true).mpr (by decide)
  · obtain ⟨boolean, number, otherwise⟩ := unquoted "1,2,3".toList (notQuoted (by decide))
    refine otherwise (fun b same => ?_) (fun x same => ?_)
    · have word := (boolean _ (inLowercase_map_toLower _) b).mp same
      revert word
      cases b <;> decide
    · obtain ⟨n, wellFormed, closed, text, -⟩ := (number x).mp same
      have plain := isPlainNumber_text wellFormed closed
      rw [text] at plain
      revert plain
      decide

end Assignment

end SheetFormula
