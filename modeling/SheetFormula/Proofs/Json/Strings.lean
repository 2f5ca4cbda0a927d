import SheetFormula.Json.Quoted

/-!
# How strings are written in JSON

Between its quotes a JSON string is written character by character (`Json.WritesChar`,
`Json.WritesString`): a character stands for itself unless it is a control character, a quote or a
backslash, a few have a letter behind a backslash, and every character can be written by its UTF-16
code units, each of them with four hexadecimal digits.

A character within the first 65536 code points is its own code unit and any other is two halves.
Which numbers come from a character at all is said by `Json.codeUnits_eq_singleton_iff` and
`Json.codeUnits_eq_pair_iff`: a half that stands alone comes from none, so it is neither written
nor read.

What is written is read back (`Json.readString?_append`), and nothing else is read
(`Json.exists_of_readString?`). Both are proved first for what stands behind a backslash
(`Json.readEscape?_append`, `Json.exists_of_readEscape?`). From there the one goes by induction on
how the string is written, a character at a time (`Json.readString?_of_writesChar`), and the other
along the recursion of the reader, with any characters found before.

The text of `Json.quote` is one way of writing a string (`Json.writesString_escape`), so it is read
back as well.
-/

namespace SheetFormula.Json

/-- The code units of a character in UTF-16: the character itself, or two halves beyond the first
65536 code points. -/
def codeUnits (c : Char) : List Nat :=
  if c.toNat < 0x10000 then [c.toNat]
  else [0xD800 + (c.toNat - 0x10000) / 0x400, 0xDC00 + (c.toNat - 0x10000) % 0x400]

/-- How a character can be written in a string: as it is, with a letter behind a backslash, or by
its code units, each of them with four hexadecimal digits. -/
inductive WritesChar : List Char → Char → Prop where
  | plain {c : Char} (printable : 0x20 ≤ c.toNat) (notQuote : c ≠ '"') (notBackslash : c ≠ '\\') :
      WritesChar [c] c
  | short {letter c : Char} (known : shortEscape? letter = some c) : WritesChar ['\\', letter] c
  | unit {d₁ d₂ d₃ d₄ c : Char} {n : Nat} (digits : codeUnit? d₁ d₂ d₃ d₄ = some n)
      (whole : codeUnits c = [n]) : WritesChar ['\\', 'u', d₁, d₂, d₃, d₄] c
  | halves {d₁ d₂ d₃ d₄ e₁ e₂ e₃ e₄ c : Char} {high low : Nat}
      (first : codeUnit? d₁ d₂ d₃ d₄ = some high) (second : codeUnit? e₁ e₂ e₃ e₄ = some low)
      (whole : codeUnits c = [high, low]) :
      WritesChar ['\\', 'u', d₁, d₂, d₃, d₄, '\\', 'u', e₁, e₂, e₃, e₄] c

/-- The characters of a string, written one after another. -/
inductive WritesString : List Char → List Char → Prop where
  | nil : WritesString [] []
  | cons {written text : List Char} {c : Char} {chars : List Char} (first : WritesChar written c)
      (others : WritesString text chars) : WritesString (written ++ text) (c :: chars)

/-! ## Code units -/

theorem hexDigit?_lt {c : Char} {n : Nat} (h : hexDigit? c = some n) : n < 16 := by
  have order (a b : Char) : a ≤ b ↔ a.toNat ≤ b.toNat := by
    rw [Char.le_def, UInt32.le_iff_toNat_le]
    rfl
  unfold hexDigit? at h
  simp only [order, Char.reduceToNat] at h
  split at h
  · simp only [Option.some.injEq] at h
    omega
  · split at h
    · simp only [Option.some.injEq] at h
      omega
    · split at h <;> simp only [Option.some.injEq, reduceCtorEq] at h
      omega

theorem codeUnit?_lt {a b c d : Char} {n : Nat} (h : codeUnit? a b c d = some n) : n < 0x10000 := by
  simp only [codeUnit?, Option.bind_eq_bind, Option.bind_eq_some_iff, Option.some.injEq] at h
  obtain ⟨i, hi, j, hj, k, hk, l, hl, rfl⟩ := h
  have := hexDigit?_lt hi
  have := hexDigit?_lt hj
  have := hexDigit?_lt hk
  have := hexDigit?_lt hl
  omega

/-- The halves are no code points of characters. -/
theorem toNat_bounds (c : Char) : c.toNat < 0xD800 ∨ 0xDFFF < c.toNat ∧ c.toNat < 0x110000 :=
  c.valid

theorem toNat_ofNat {n : Nat} (valid : n < 0xD800 ∨ 0xDFFF < n ∧ n < 0x110000) :
    (Char.ofNat n).toNat = n := by
  have valid : n.isValidChar := valid
  rw [Char.ofNat, dif_pos valid]
  rfl

theorem toNat_joinHalves {high low : Nat} (isHigh : isHighHalf high = true)
    (isLow : isLowHalf low = true) :
    (joinHalves high low).toNat = 0x10000 + 0x400 * (high - 0xD800) + (low - 0xDC00) := by
  simp only [isHighHalf, isLowHalf, Bool.and_eq_true, decide_eq_true_eq] at isHigh isLow
  exact toNat_ofNat (by omega)

/-- A character with one code unit is this code unit. -/
theorem codeUnits_eq_singleton_iff {c : Char} {n : Nat} :
    codeUnits c = [n] ↔ n < 0x10000 ∧ isHighHalf n = false ∧ isLowHalf n = false ∧
      c = Char.ofNat n := by
  have bounds := toNat_bounds c
  unfold codeUnits isHighHalf isLowHalf
  simp only [Bool.and_eq_false_iff, decide_eq_false_iff_not]
  constructor
  · split
    · rintro ⟨⟩
      exact ⟨by omega, by omega, by omega, (Char.ofNat_toNat c).symm⟩
    · simp
  · rintro ⟨small, notHigh, notLow, rfl⟩
    rw [toNat_ofNat (by omega), if_pos small]

/-- A character with two code units is made up of a first half and a second half. -/
theorem codeUnits_eq_pair_iff {c : Char} {high low : Nat} :
    codeUnits c = [high, low] ↔
      isHighHalf high = true ∧ isLowHalf low = true ∧ c = joinHalves high low := by
  have bounds := toNat_bounds c
  constructor
  · unfold codeUnits
    split
    · simp
    · intro h
      simp only [List.cons.injEq, and_true] at h
      obtain ⟨rfl, rfl⟩ := h
      refine ⟨by simp [isHighHalf]; omega, by simp [isLowHalf]; omega, ?_⟩
      calc c = Char.ofNat c.toNat := (Char.ofNat_toNat c).symm
        _ = _ := congrArg Char.ofNat (by omega)
  · rintro ⟨isHigh, isLow, whole⟩
    have point := congrArg Char.toNat whole
    rw [toNat_joinHalves isHigh isLow] at point
    simp only [isHighHalf, isLowHalf, Bool.and_eq_true, decide_eq_true_eq] at isHigh isLow
    rw [codeUnits, if_neg (by omega)]
    simp only [List.cons.injEq, and_true]
    omega

/-! ## Reading -/

theorem lowHalf?_eq_some_iff {text rest : List Char} {low : Nat} :
    lowHalf? text = some (low, rest) ↔ ∃ a b c d, text = '\\' :: 'u' :: a :: b :: c :: d :: rest ∧
      codeUnit? a b c d = some low ∧ isLowHalf low = true := by
  unfold lowHalf?
  split
  · next a b c d after =>
    simp only [Option.bind_eq_bind, Option.bind_eq_some_iff, Option.ite_none_right_eq_some,
      Option.some.injEq, Prod.mk.injEq, List.cons.injEq, true_and]
    constructor
    · rintro ⟨n, digits, isLow, rfl, rfl⟩
      exact ⟨a, b, c, d, ⟨rfl, rfl, rfl, rfl, rfl⟩, digits, isLow⟩
    · rintro ⟨_, _, _, _, ⟨rfl, rfl, rfl, rfl, rfl⟩, digits, isLow⟩
      exact ⟨low, digits, isLow, rfl, rfl⟩
  · next other =>
    constructor
    · rintro ⟨⟩
    · rintro ⟨a, b, c, d, rfl, -⟩
      exact absurd rfl (other a b c d rest)

/-- What stands behind a backslash is read as the character that is written there. -/
theorem readEscape?_append {written : List Char} {c : Char} (h : WritesChar ('\\' :: written) c)
    (rest : List Char) : readEscape? (written ++ rest) = some (c, rest) := by
  cases h with
  | plain _ _ notBackslash => exact absurd rfl notBackslash
  | short known =>
    unfold shortEscape? at known
    split at known <;> cases known <;> rfl
  | @unit d₁ d₂ d₃ d₄ _ n digits whole =>
    obtain ⟨-, notHigh, notLow, rfl⟩ := codeUnits_eq_singleton_iff.mp whole
    simp [readEscape?, digits, notHigh, notLow]
  | @halves d₁ d₂ d₃ d₄ e₁ e₂ e₃ e₄ _ high low first second whole =>
    obtain ⟨isHigh, isLow, joined⟩ := codeUnits_eq_pair_iff.mp whole
    have notLow : isLowHalf high = false := by
      simp only [isHighHalf, isLowHalf, Bool.and_eq_true, Bool.and_eq_false_iff,
        decide_eq_true_eq, decide_eq_false_iff_not] at isHigh ⊢
      omega
    have half : lowHalf? ('\\' :: 'u' :: e₁ :: e₂ :: e₃ :: e₄ :: rest) = some (low, rest) :=
      lowHalf?_eq_some_iff.mpr ⟨e₁, e₂, e₃, e₄, rfl, second, isLow⟩
    simp [readEscape?, first, notLow, isHigh, half, joined]

/-- Only what is written behind a backslash is read there. -/
theorem exists_of_readEscape? {text rest : List Char} {c : Char}
    (h : readEscape? text = some (c, rest)) :
    ∃ written, text = written ++ rest ∧ WritesChar ('\\' :: written) c := by
  unfold readEscape? at h
  split at h
  · next d₁ d₂ d₃ d₄ after =>
    obtain ⟨n, digits, h⟩ := Option.bind_eq_some_iff.mp h
    split at h
    · cases h
    · next notLow =>
      split at h
      · next isHigh =>
        obtain ⟨⟨low, after⟩, half, joined⟩ := Option.bind_eq_some_iff.mp h
        obtain ⟨e₁, e₂, e₃, e₄, rfl, digits', isLow⟩ := lowHalf?_eq_some_iff.mp half
        simp only [Option.some.injEq, Prod.mk.injEq] at joined
        obtain ⟨whole, rfl⟩ := joined
        exact ⟨['u', d₁, d₂, d₃, d₄, '\\', 'u', e₁, e₂, e₃, e₄], rfl,
          .halves digits digits' (codeUnits_eq_pair_iff.mpr ⟨isHigh, isLow, whole.symm⟩)⟩
      · next notHigh =>
        simp only [Option.some.injEq, Prod.mk.injEq] at h
        obtain ⟨whole, rfl⟩ := h
        exact ⟨['u', d₁, d₂, d₃, d₄], rfl, .unit digits (codeUnits_eq_singleton_iff.mpr
          ⟨codeUnit?_lt digits, Bool.eq_false_iff.mpr notHigh, Bool.eq_false_iff.mpr notLow,
            whole.symm⟩)⟩
  · next letter after _ =>
    obtain ⟨d, known, h⟩ := Option.map_eq_some_iff.mp h
    cases h
    exact ⟨[letter], rfl, .short known⟩
  · cases h

/-- A character that is written is read, and what follows it is left. -/
theorem readString?_of_writesChar {written : List Char} {c : Char} (h : WritesChar written c)
    (found rest : List Char) :
    readString? found (written ++ rest) = readString? (c :: found) rest := by
  have escape {written : List Char} (h : WritesChar ('\\' :: written) c) :
      readString? found ('\\' :: (written ++ rest)) = readString? (c :: found) rest := by
    rw [readString?]
    split
    · next read =>
      rw [readEscape?_append h] at read
      cases read
      rfl
    · next refused =>
      rw [readEscape?_append h] at refused
      cases refused
  cases h with
  | plain printable notQuote notBackslash =>
    rw [List.singleton_append, readString?]
    · rw [if_neg (by omega)]
    · exact notQuote
    · exact notBackslash
  | short known => exact escape (.short known)
  | unit digits whole => exact escape (.unit digits whole)
  | halves first second whole => exact escape (.halves first second whole)

/-- A string that is written is read up to its closing quote. -/
theorem readString?_append {written chars : List Char} (h : WritesString written chars)
    (found rest : List Char) : readString? found (written ++ '"' :: rest) =
      some (String.ofList (found.reverse ++ chars), rest) := by
  induction h generalizing found with
  | nil => simp [readString?]
  | cons first _ ih =>
    rw [List.append_assoc, readString?_of_writesChar first, ih, List.reverse_cons,
      List.append_assoc, List.singleton_append]

/-- Only what is written as a string is read. -/
theorem exists_of_readString? {found text rest : List Char} {s : String}
    (h : readString? found text = some (s, rest)) :
    ∃ written chars, text = written ++ '"' :: rest ∧ WritesString written chars ∧
      s = String.ofList (found.reverse ++ chars) := by
  fun_induction readString? found text with
  | case1 => cases h
  | case2 found after =>
    simp only [Option.some.injEq, Prod.mk.injEq] at h
    obtain ⟨rfl, rfl⟩ := h
    exact ⟨[], [], rfl, .nil, by simp⟩
  | case3 found after c others escape ih =>
    obtain ⟨first, rfl, writesChar⟩ := exists_of_readEscape? escape
    obtain ⟨written, chars, rfl, writes, rfl⟩ := ih h
    exact ⟨'\\' :: first ++ written, c :: chars, by simp, .cons writesChar writes, by simp⟩
  | case4 => cases h
  | case5 => cases h
  | case6 found c after notQuote notBackslash printable ih =>
    obtain ⟨written, chars, rfl, writes, rfl⟩ := ih h
    exact ⟨c :: written, c :: chars, rfl,
      .cons (.plain (by omega) notQuote notBackslash) writes, by simp⟩

/-! ## Writing -/

theorem hexDigit?_hexDigit : ∀ n < 16, hexDigit? (hexDigit n) = some n := by
  decide

/-- A character is written with an escape where it has to be. -/
theorem writesChar_escape (c : Char) : WritesChar (escape c) c := by
  unfold escape
  split
  iterate 7 exact .short rfl
  next notQuote notBackslash _ _ _ _ _ =>
    split
    · next control =>
      have high := hexDigit?_hexDigit (c.toNat / 16) (by omega)
      have low := hexDigit?_hexDigit (c.toNat % 16) (by omega)
      have digits : codeUnit? '0' '0' (hexDigit (c.toNat / 16)) (hexDigit (c.toNat % 16)) =
          some c.toNat := by
        have zero : hexDigit? '0' = some 0 := rfl
        simp only [codeUnit?, zero, high, low, Option.bind_eq_bind, Option.bind_some,
          Option.some.injEq]
        omega
      exact .unit digits (if_pos (by omega))
    · next printable => exact .plain (by omega) notQuote notBackslash

/-- The characters of a string, each written with an escape where it has to be. -/
theorem writesString_escape (chars : List Char) : WritesString (chars.flatMap escape) chars := by
  induction chars with
  | nil => exact .nil
  | cons c chars ih => exact .cons (writesChar_escape c) ih

end SheetFormula.Json
