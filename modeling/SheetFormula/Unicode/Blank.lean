import SheetFormula.Unicode.Ranges

/-!
# Blank characters

The code points with the property White_Space in Unicode 15.0, which separate the tokens of a
formula and are otherwise skipped. No version of Unicode since 6.3 has changed them.

They are more than the white space of ASCII (`isBlank_of_isWhitespace`): the no-break spaces and
the line and paragraph separators are among them.
-/

namespace SheetFormula.Unicode

/-- The code points with the property White_Space. -/
def blankRanges : Ranges :=
  [(0x9, 0xD), (0x20, 0x20), (0x85, 0x85), (0xA0, 0xA0), (0x1680, 0x1680), (0x2000, 0x200A),
   (0x2028, 0x2029), (0x202F, 0x202F), (0x205F, 0x205F), (0x3000, 0x3000)]

/-- Whether `c` has the property White_Space. -/
def isBlank (c : Char) : Bool :=
  blankRanges.covers c.toNat

/-- Every white space character of ASCII is blank. -/
theorem isBlank_of_isWhitespace {c : Char} (h : c.isWhitespace = true) : isBlank c = true := by
  simp only [Char.isWhitespace, Bool.or_eq_true, decide_eq_true_eq] at h
  rcases h with ((rfl | rfl) | rfl) | rfl <;> decide

end SheetFormula.Unicode
