/-!
# Sets of code points

A character class is a list of closed ranges of code points in increasing order, and a lookup walks
it until it is past the code point.

`covers_eq_true_iff` says that on an increasing list the lookup finds exactly the code points that
lie in some range. It is by induction on the list: a code point before the first range is before
all of them, and one behind it is looked for in the others.

The tables built on this, `SheetFormula.Unicode.Blank`, `SheetFormula.Unicode.Numeric`,
`SheetFormula.Unicode.Alphabetic` and `SheetFormula.Unicode.Printable`, are all of Unicode 15.0.
-/

namespace SheetFormula.Unicode

/-- Closed ranges of code points, each as its first and its last member. -/
abbrev Ranges := List (Nat × Nat)

namespace Ranges

/-- Whether some range holds `n`; the ranges after the first one that begins beyond `n` are not
looked at. -/
def covers : Ranges → Nat → Bool
  | [], _ => false
  | (first, last) :: others, n =>
    if n < first then false else if n ≤ last then true else covers others n

/-- Each range begins after the one before it ends. -/
def Increasing (ranges : Ranges) : Prop :=
  ranges.Pairwise fun a b => a.2 < b.1

theorem covers_eq_true_iff {ranges : Ranges} (nonempty : ∀ r ∈ ranges, r.1 ≤ r.2)
    (increasing : ranges.Increasing) {n : Nat} :
    ranges.covers n = true ↔ ∃ r ∈ ranges, r.1 ≤ n ∧ n ≤ r.2 := by
  induction ranges with
  | nil => simp [covers]
  | cons r others ih =>
    obtain ⟨first, last⟩ := r
    obtain ⟨later, increasing⟩ := List.pairwise_cons.mp increasing
    have ih := ih (fun r h => nonempty r (List.mem_cons_of_mem _ h)) increasing
    have here : first ≤ last := nonempty (first, last) List.mem_cons_self
    unfold covers
    split
    · next below =>
      simp only [Bool.false_eq_true, false_iff]
      rintro ⟨r, hr, hn, -⟩
      rcases List.mem_cons.mp hr with rfl | hr
      · exact absurd hn (by simpa using below)
      · have := later r hr
        simp only at this
        omega
    · next above =>
      split
      · next within =>
        simp only [true_iff]
        exact ⟨_, List.mem_cons_self, Nat.not_lt.mp ‹_›, within⟩
      · next beyond =>
        rw [ih]
        constructor
        · rintro ⟨r, hr, h⟩
          exact ⟨r, List.mem_cons_of_mem _ hr, h⟩
        · rintro ⟨r, hr, h⟩
          rcases List.mem_cons.mp hr with rfl | hr
          · exact absurd h.2 (by simpa using beyond)
          · exact ⟨r, hr, h⟩

end Ranges

end SheetFormula.Unicode
