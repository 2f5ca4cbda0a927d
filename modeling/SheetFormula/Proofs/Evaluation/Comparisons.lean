import Mathlib
import SheetFormula.Proofs.Number.Order

/-!
# Comparisons are coherent

Equality is computed from the values as they are, and the orderings from the order of two numbers
or of two strings. The two agree: `Value.order?` is the one order behind all five comparisons
(`Comparison.apply_of_ordered`), and what `Comparison.apply_coherent` says of them comes down to
this order.

Values that are neither two numbers nor two strings are equal only if they are the same boolean,
and all four orderings refuse them for the same reason (`Comparison.exists_apply_eq_error`). For
two numbers or two strings a comparison holds if they have an order and it is one that the
comparison asks for (`Comparison.isTrueOf_iff`). From this the laws between comparisons follow
(`Comparison.isTrueOf_swap`), and that exactly one of less, equal and greater holds where there is
an order (`Comparison.existsUnique_isTrueOf`).

So the comparisons put the strings and the numbers without NaN into a strict order each
(`Comparison.StrictlyOrders`). The order of strings is that of their code points
(`Comparison.isTrueOf_less_string`). The order of numbers is that of the numbers that doubles stand
for (`Comparison.isTrueOf_number`), by `SheetFormula.Proofs.Number.Order`. NaN has no order with
any number, itself included, so nothing holds of it (`Comparison.apply_number_of_isNaN`).
-/

namespace SheetFormula

open Number

/-! ## The order of two values -/

namespace Value

/-- Two numbers or two strings. -/
def Ordered (l r : Value) : Prop :=
  l.kind = .number ∧ r.kind = .number ∨ l.kind = .string ∧ r.kind = .string

instance (l r : Value) : Decidable (l.Ordered r) :=
  inferInstanceAs (Decidable (_ ∨ _))

/-- How `l` stands to `r`, nothing if neither is less and they are not equal. -/
def order? : Value → Value → Option Ordering
  | .number x, .number y => numberOrder? x y
  | .string s, .string t => some (compare s t)
  | _, _ => none

variable {l r u v w : Value}

theorem Ordered.symm (h : l.Ordered r) : r.Ordered l :=
  h.imp And.symm And.symm

theorem ordered_iff : l.Ordered r ↔
    (∃ x y, l = .number x ∧ r = .number y) ∨ ∃ s t, l = .string s ∧ r = .string t := by
  constructor
  · rintro (⟨hl, hr⟩ | ⟨hl, hr⟩)
    · cases l <;> cases hl
      cases r <;> cases hr
      exact .inl ⟨_, _, rfl, rfl⟩
    · cases l <;> cases hl
      cases r <;> cases hr
      exact .inr ⟨_, _, rfl, rfl⟩
  · rintro (⟨x, y, rfl, rfl⟩ | ⟨s, t, rfl, rfl⟩)
    · exact .inl ⟨rfl, rfl⟩
    · exact .inr ⟨rfl, rfl⟩

theorem ordered_of_order? {order : Ordering} (h : l.order? r = some order) : l.Ordered r := by
  unfold order? at h
  split at h
  · exact .inl ⟨rfl, rfl⟩
  · exact .inr ⟨rfl, rfl⟩
  · cases h

theorem order?_swap (l r : Value) : (l.order? r).map Ordering.swap = r.order? l := by
  cases l with
  | number x =>
    cases r with
    | number y => exact numberOrder?_swap x y
    | string | boolean => rfl
  | string s =>
    cases r with
    | string t => exact congrArg some Std.OrientedOrd.eq_swap.symm
    | number | boolean => rfl
  | boolean => cases r <;> rfl

theorem order?_trans (first : u.order? v = some .lt) (second : v.order? w = some .lt) :
    u.order? w = some .lt := by
  rcases ordered_iff.mp (ordered_of_order? first) with ⟨x, y, rfl, rfl⟩ | ⟨s, t, rfl, rfl⟩
  · rcases ordered_iff.mp (ordered_of_order? second) with ⟨_, z, ⟨⟩, rfl⟩ | ⟨_, _, ⟨⟩, -⟩
    exact numberOrder?_trans first second
  · rcases ordered_iff.mp (ordered_of_order? second) with ⟨_, _, ⟨⟩, -⟩ | ⟨_, t', ⟨⟩, rfl⟩
    have less : compare s t = .lt := Option.some.inj first
    exact congrArg some (Std.TransCmp.lt_trans less (Option.some.inj second))

/-- Equality agrees with the order. -/
theorem beq_iff_order? (h : l.Ordered r) : (l == r) = true ↔ l.order? r = some .eq := by
  change l.equal r = true ↔ _
  rcases ordered_iff.mp h with ⟨x, y, rfl, rfl⟩ | ⟨s, t, rfl, rfl⟩
  · exact beq_iff_numberOrder?
  · simp [order?, equal]

theorem beq_eq_false_of_kind_ne (h : l.kind ≠ r.kind) : (l == r) = false := by
  change l.equal r = false
  cases l <;> cases r <;> first | rfl | exact absurd rfl h

end Value

/-! ## The five comparisons -/

namespace Comparison

variable {op : Comparison} {l r : Value}

/-- The comparison succeeds on `l` and `r`, and holds. -/
def IsTrueOf (op : Comparison) (l r : Value) : Prop :=
  ∀ position, op.apply l r position = .ok (.boolean true)

/-- All five comparisons read the one order of two values. -/
theorem apply_of_ordered (h : l.Ordered r) (op : Comparison) (position : Nat) :
    op.apply l r position = .ok (.boolean ((l.order? r).any op.holds)) := by
  have ordering : op.order? l r position = .ok (l.order? r) := by
    rcases Value.ordered_iff.mp h with ⟨x, y, rfl, rfl⟩ | ⟨s, t, rfl, rfl⟩
    · rfl
    · rfl
  cases op with
  | equal =>
    have same := l.beq_iff_order? h
    rw [apply]
    congr 2
    rw [Bool.eq_iff_iff, same]
    cases l.order? r with
    | none => simp
    | some order => cases order <;> simp [holds]
  | less | greater | lessEqual | greaterEqual =>
    rw [apply, ordering]
    · rfl
    · exact Comparison.noConfusion

/-- Values without an order are refused by all four orderings for the same reason. -/
theorem exists_apply_eq_error (h : ¬l.Ordered r) :
    ∃ expected found, ∀ op, op ≠ equal → ∀ position,
      op.apply l r position = .error (.typeMismatch op.symbol.text expected found position) := by
  suffices refused : ∃ expected found, ∀ (op : Comparison) position,
      op.order? l r position = .error (.typeMismatch op.symbol.text expected found position) by
    obtain ⟨expected, found, refused⟩ := refused
    refine ⟨expected, found, fun op ordering position => ?_⟩
    rw [apply, refused]
    · rfl
    · exact ordering
  cases l with
  | number x =>
    cases r with
    | number y => exact absurd (.inl ⟨rfl, rfl⟩) h
    | string | boolean => exact ⟨_, _, fun _ _ => rfl⟩
  | string s =>
    cases r with
    | string t => exact absurd (.inr ⟨rfl, rfl⟩) h
    | number | boolean => exact ⟨_, _, fun _ _ => rfl⟩
  | boolean b => exact ⟨_, _, fun _ _ => rfl⟩

theorem isTrueOf_iff (h : l.Ordered r) :
    op.IsTrueOf l r ↔ ∃ order, l.order? r = some order ∧ op.holds order = true := by
  simp only [IsTrueOf, apply_of_ordered h]
  cases l.order? r with
  | none => simp
  | some order => simp

theorem eq_of_holds {op op' : Comparison} {order : Ordering}
    (known : op = less ∨ op = equal ∨ op = greater)
    (known' : op' = less ∨ op' = equal ∨ op' = greater) (h : op.holds order = true)
    (h' : op'.holds order = true) : op = op' := by
  rcases known with rfl | rfl | rfl <;> rcases known' with rfl | rfl | rfl <;>
    cases order <;> simp_all [holds]

/-- Of two values that have an order exactly one of the three comparisons holds. -/
theorem existsUnique_isTrueOf (h : l.Ordered r) (place : (l.order? r).isSome = true) :
    ∃! op, (op = less ∨ op = equal ∨ op = greater) ∧ op.IsTrueOf l r := by
  obtain ⟨order, place⟩ := Option.isSome_iff_exists.mp place
  simp only [isTrueOf_iff h, place, Option.some.injEq, exists_eq_left']
  refine existsUnique_of_exists_of_unique ?_ fun op op' one other =>
    eq_of_holds one.1 other.1 one.2 other.2
  cases order with
  | lt => exact ⟨less, .inl rfl, rfl⟩
  | eq => exact ⟨equal, .inr (.inl rfl), rfl⟩
  | gt => exact ⟨greater, .inr (.inr rfl), rfl⟩

/-- `greater` and `greaterEqual` are `less` and `lessEqual` the other way round, and `lessEqual`
is `less` or `equal`. -/
theorem isTrueOf_swap (h : l.Ordered r) :
    (greater.IsTrueOf l r ↔ less.IsTrueOf r l) ∧
      (greaterEqual.IsTrueOf l r ↔ lessEqual.IsTrueOf r l) ∧
      (lessEqual.IsTrueOf l r ↔ less.IsTrueOf l r ∨ equal.IsTrueOf l r) := by
  simp only [isTrueOf_iff h, isTrueOf_iff h.symm, ← Value.order?_swap l r]
  cases l.order? r with
  | none => simp
  | some order => cases order <;> simp [holds]

theorem isTrueOf_less_iff (h : l.Ordered r) : less.IsTrueOf l r ↔ l.order? r = some .lt := by
  simp [isTrueOf_iff h, holds]

theorem isTrueOf_equal_iff (h : l.Ordered r) : equal.IsTrueOf l r ↔ l.order? r = some .eq := by
  simp [isTrueOf_iff h, holds]

/-- The comparisons put the values of `S` into one strict order: exactly one of less, equal and
greater holds of any two, and less is transitive. -/
structure StrictlyOrders (S : Value → Prop) : Prop where
  existsUnique : ∀ u v, S u → S v →
    ∃! op, (op = less ∨ op = equal ∨ op = greater) ∧ op.IsTrueOf u v
  trans : ∀ u v w, S u → S v → S w →
    less.IsTrueOf u v → less.IsTrueOf v w → less.IsTrueOf u w

theorem strictlyOrders_of {S : Value → Prop}
    (ordered : ∀ u v, S u → S v → u.Ordered v ∧ (u.order? v).isSome = true) :
    StrictlyOrders S where
  existsUnique u v hu hv := existsUnique_isTrueOf (ordered u v hu hv).1 (ordered u v hu hv).2
  trans u v w hu hv hw := by
    rw [isTrueOf_less_iff (ordered u v hu hv).1, isTrueOf_less_iff (ordered v w hv hw).1,
      isTrueOf_less_iff (ordered u w hu hw).1]
    exact Value.order?_trans

theorem strictlyOrders_strings : StrictlyOrders fun v => ∃ s, v = .string s := by
  refine strictlyOrders_of ?_
  rintro _ _ ⟨s, rfl⟩ ⟨t, rfl⟩
  exact ⟨.inr ⟨rfl, rfl⟩, rfl⟩

theorem strictlyOrders_numbers :
    StrictlyOrders fun v => ∃ x, v = .number x ∧ x.isNaN = false := by
  refine strictlyOrders_of ?_
  rintro _ _ ⟨x, rfl, hx⟩ ⟨y, rfl, hy⟩
  refine ⟨.inl ⟨rfl, rfl⟩, ?_⟩
  rw [Value.order?, Option.isSome_iff_ne_none, ne_eq, numberOrder?_eq_none_iff, hx, hy]
  simp

/-- Strings are compared code point by code point. -/
theorem isTrueOf_less_string (s t : String) : less.IsTrueOf (.string s) (.string t) ↔
    List.Lex (fun c d => c.toNat < d.toNat) s.toList t.toList := by
  rw [isTrueOf_less_iff (.inr ⟨rfl, rfl⟩), Value.order?, Option.some.injEq]
  exact compareOfLessAndEq_eq_lt.trans String.lt_iff_toList_lt

/-- Numbers are compared as the numbers that the doubles stand for. -/
theorem isTrueOf_number {x y : Float} {p q : WithBot (WithTop ℚ)} (hx : exactValue? x = some p)
    (hy : exactValue? y = some q) :
    (less.IsTrueOf (.number x) (.number y) ↔ p < q) ∧
      (equal.IsTrueOf (.number x) (.number y) ↔ p = q) := by
  rw [isTrueOf_less_iff (.inl ⟨rfl, rfl⟩), isTrueOf_equal_iff (.inl ⟨rfl, rfl⟩), Value.order?,
    numberOrder?_eq, hx, hy]
  simp [compare_lt_iff_lt]

/-- Nothing holds of NaN. -/
theorem apply_number_of_isNaN {x y : Float} (h : x.isNaN = true ∨ y.isNaN = true)
    (op : Comparison) (position : Nat) :
    op.apply (.number x) (.number y) position = .ok (.boolean false) := by
  rw [apply_of_ordered (.inl ⟨rfl, rfl⟩), Value.order?, numberOrder?_eq_none_iff.mpr h]
  rfl

/-- The comparisons are coherent: equality never fails, the orderings fail together, and where they
do not all five come from one strict order of the strings and one of the numbers. -/
theorem apply_coherent (l r : Value) :
    -- equality
    (∀ position, equal.apply l r position = .ok (.boolean (l == r)) ∧
      (l.kind ≠ r.kind → equal.apply l r position = .ok (.boolean false))) ∧
    -- success and failure of the orderings
    (∀ op, op ≠ equal → ∀ position,
      ((∃ v, op.apply l r position = .ok v) ↔ l.Ordered r) ∧
        (l.Ordered r → ∃ b, op.apply l r position = .ok (.boolean b))) ∧
    (¬l.Ordered r → ∃ expected found, ∀ op, op ≠ equal → ∀ position,
      op.apply l r position = .error (.typeMismatch op.symbol.text expected found position)) ∧
    -- each from the others
    (l.Ordered r →
      (greater.IsTrueOf l r ↔ less.IsTrueOf r l) ∧
      (greaterEqual.IsTrueOf l r ↔ lessEqual.IsTrueOf r l) ∧
      (lessEqual.IsTrueOf l r ↔ less.IsTrueOf l r ∨ equal.IsTrueOf l r)) ∧
    -- strings
    (StrictlyOrders fun v => ∃ s, v = .string s) ∧
    (∀ s t, less.IsTrueOf (.string s) (.string t) ↔
      List.Lex (fun c d => c.toNat < d.toNat) s.toList t.toList) ∧
    -- numbers
    (StrictlyOrders fun v => ∃ x, v = .number x ∧ x.isNaN = false) ∧
    (∀ x y p q, exactValue? x = some p → exactValue? y = some q →
      (less.IsTrueOf (.number x) (.number y) ↔ p < q) ∧
        (equal.IsTrueOf (.number x) (.number y) ↔ p = q)) ∧
    equal.IsTrueOf (.number (-0)) (.number 0) ∧
    (∀ x y : Float, x.isNaN = true ∨ y.isNaN = true → ∀ (op : Comparison) position,
      op.apply (.number x) (.number y) position = .ok (.boolean false)) := by
  refine ⟨fun position => ⟨rfl, fun differ => ?_⟩, fun op ordering position => ?_,
    exists_apply_eq_error, isTrueOf_swap, strictlyOrders_strings, isTrueOf_less_string,
    strictlyOrders_numbers, fun x y p q => isTrueOf_number, ?_, fun x y => apply_number_of_isNaN⟩
  · rw [apply, Value.beq_eq_false_of_kind_ne differ]
  · have succeeds (h : l.Ordered r) : ∃ b, op.apply l r position = .ok (.boolean b) :=
      ⟨_, apply_of_ordered h op position⟩
    refine ⟨⟨?_, fun h => (succeeds h).imp' _ fun _ => id⟩, succeeds⟩
    rintro ⟨v, done⟩
    by_contra refused
    obtain ⟨expected, found, fails⟩ := exists_apply_eq_error refused
    rw [fails op ordering] at done
    cases done
  · rw [isTrueOf_equal_iff (.inl ⟨rfl, rfl⟩), Value.order?, numberOrder?_eq, exactValue?_neg_zero]
    rfl

theorem apply_coherent_one_two :
    (greater.IsTrueOf (.number 2) (.number 1) ↔ less.IsTrueOf (.number 1) (.number 2)) ∧
    less.IsTrueOf (.number 1) (.number 2) ∧
    (∃ expected found, ∀ op, op ≠ equal → ∀ position,
      op.apply (.number 1) (.boolean true) position =
        .error (.typeMismatch op.symbol.text expected found position)) ∧
    equal.apply (.number 1) (.string "1") 0 = .ok (.boolean false) ∧
    equal.apply (.number (0 / 0)) (.number (0 / 0)) 0 = .ok (.boolean false) := by
  have one : exactValue? 1 = some ((2 ^ 52 * 2 ^ (-52 : Int) : ℚ) : WithTop ℚ) := rfl
  have two : exactValue? 2 = some ((2 ^ 52 * 2 ^ (-51 : Int) : ℚ) : WithTop ℚ) := rfl
  have isNaN_zero_div : (0 / 0 : Float).isNaN = true := by decide
  have less_two : (2 ^ 52 * 2 ^ (-52 : Int) : ℚ) < 2 ^ 52 * 2 ^ (-51 : Int) := by norm_num
  obtain ⟨-, -, -, backward, -, -, -, numbers, -, nan⟩ := apply_coherent (.number 2) (.number 1)
  obtain ⟨-, -, refused, -⟩ := apply_coherent (.number 1) (.boolean true)
  obtain ⟨equality, -⟩ := apply_coherent (.number 1) (.string "1")
  refine ⟨(backward (by decide)).1, (numbers 1 2 _ _ one two).1.mpr ?_, refused (by decide),
    (equality 0).2 (by decide), nan _ _ (.inl isNaN_zero_div) equal 0⟩
  exact WithBot.coe_lt_coe.mpr (WithTop.coe_lt_coe.mpr less_two)

end Comparison

end SheetFormula
