import SheetFormula.Token.Lexer

/-!
# Classes of characters

The classes that the lexer tells apart do not overlap where it matters: a blank character is
neither numeric nor alphabetic and belongs to no symbol, and no symbol or quote is numeric or
alphabetic. So a numeric or alphabetic character decides by itself what is read
(`Scan.ofChars_of_isAlphanumeric`), and every run of characters ends at a blank one
(`Separated.endsRun`).

There are few blank characters, so what is said of all of them is checked for each of them in turn
(`of_isBlank`); this needs `Ranges.covers_eq_true_iff`, to know them all from the table.

`EndsRun` says that a run of characters of some class goes no further. With it a run is taken off
the front of a text by a lemma (`takeWhile_append`), and no proof on a lexeme has to look into the
lists.
-/

namespace SheetFormula

open Unicode (blankRanges isAlphabetic isBlank isNumeric)

namespace Unicode

/-- What holds of every code point in the table of blank characters holds of every blank
character. -/
theorem of_isBlank (p : Nat → Bool)
    (h : ∀ r ∈ blankRanges, ∀ i < r.2 + 1 - r.1, p (r.1 + i) = true) {c : Char}
    (blank : isBlank c = true) : p c.toNat = true := by
  have nonempty : ∀ r ∈ blankRanges, r.1 ≤ r.2 := by decide
  have increasing : blankRanges.Increasing := by
    unfold Ranges.Increasing
    decide
  obtain ⟨r, mem, first, last⟩ := (Ranges.covers_eq_true_iff nonempty increasing).mp blank
  have := h r mem (c.toNat - r.1) (by omega)
  rwa [Nat.add_sub_cancel' first] at this

theorem isNumeric_of_isBlank {c : Char} (blank : isBlank c = true) : isNumeric c = false := by
  have none : ∀ r ∈ blankRanges, ∀ i < r.2 + 1 - r.1,
      (!numericRanges.covers (r.1 + i)) = true := by
    decide +kernel
  simpa [isNumeric] using of_isBlank (fun n => !numericRanges.covers n) none blank

theorem isAlphabetic_of_isBlank {c : Char} (blank : isBlank c = true) :
    isAlphabetic c = false := by
  let covered (n : Nat) : Bool :=
    if n < 0x1000 then alphabeticLow.covers n
    else if n < 0x10000 then alphabeticBasic.covers n
    else alphabeticHigh.covers n
  have none : ∀ r ∈ blankRanges, ∀ i < r.2 + 1 - r.1, (!covered (r.1 + i)) = true := by
    decide +kernel
  have : (!covered c.toNat) = true := of_isBlank (fun n => !covered n) none blank
  exact (Bool.not_eq_true' _).mp this

end Unicode

theorem isComparisonSign_of_isBlank {c : Char} (blank : isBlank c = true) :
    isComparisonSign c = false := by
  refine Bool.eq_false_iff.mpr fun sign => ?_
  simp only [isComparisonSign, Bool.or_eq_true, beq_iff_eq] at sign
  rcases sign with (rfl | rfl) | rfl <;> exact absurd blank (by decide)

/-! ## Where runs of characters end -/

/-- No character of the class `p` comes next. -/
def EndsRun (p : Char → Bool) (rest : List Char) : Prop :=
  ∀ c ∈ rest.head?, p c = false

theorem endsRun_dropWhile (p : Char → Bool) (rest : List Char) :
    EndsRun p (rest.dropWhile p) := by
  intro c mem
  have first := List.head?_dropWhile_not p rest
  rw [Option.mem_def.mp mem] at first
  exact first

namespace EndsRun

variable {p : Char → Bool} {run rest : List Char}

theorem takeWhile_append (ends : EndsRun p rest) (within : ∀ c ∈ run, p c = true) :
    (run ++ rest).takeWhile p = run := by
  rw [List.takeWhile_append_of_pos within]
  cases rest with
  | nil => simp
  | cons c rest => simp [ends c rfl]

theorem takeWhile_eq_nil (ends : EndsRun p rest) : rest.takeWhile p = [] := by
  simpa using @takeWhile_append p [] rest ends (by simp)

theorem dropWhile_eq_self (ends : EndsRun p rest) : rest.dropWhile p = rest := by
  simpa [ends.takeWhile_eq_nil] using List.takeWhile_append_dropWhile (p := p) (l := rest)

end EndsRun

/-- A text that is at its end or goes on with a blank character. -/
def Separated (rest : List Char) : Prop :=
  ∀ c ∈ rest.head?, isBlank c = true

/-- A run of characters of a class without blank ones ends where the text is separated. -/
theorem Separated.endsRun {rest : List Char} (separated : Separated rest) {p : Char → Bool}
    (nonblank : ∀ c, isBlank c = true → p c = false) : EndsRun p rest :=
  fun c mem => nonblank c (separated c mem)

namespace Scan

/-- A numeric character begins a number, and any other alphabetic character a name. -/
theorem ofChars_of_isAlphanumeric {c : Char} (h : (isNumeric c || isAlphabetic c) = true)
    (rest : List Char) :
    ofChars c rest = if isNumeric c then number c rest else identifier c rest := by
  have notSymbol : Symbol.ofChar? c = none := by
    unfold Symbol.ofChar?
    split <;> first | rfl | exact absurd h (by decide)
  have notSign : ¬(c = '<' ∨ c = '>') := by
    rintro (rfl | rfl) <;> exact absurd h (by decide)
  have notQuote : c ≠ '"' := by
    rintro rfl
    exact absurd h (by decide)
  have letter : isNumeric c = false → isAlphabetic c = true := by
    intro h'
    simpa [h'] using h
  unfold ofChars
  simp only [notSymbol, if_neg notSign, if_neg notQuote]
  split
  · rfl
  · next h' => rw [if_pos (letter (Bool.eq_false_iff.mpr h'))]

end Scan

end SheetFormula
