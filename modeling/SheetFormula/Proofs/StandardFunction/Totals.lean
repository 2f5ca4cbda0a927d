import SheetFormula.Proofs.History
import SheetFormula.Proofs.Number.Zero
import SheetFormula.Proofs.Rendering.Joined

/-!
# Sums and means by functions and by operators

`Sum` adds its arguments to negative zero from left to right, and a chain of additions adds each
operand to what the ones before it have come to. Both make the same additions in the same order but
for the first one, which changes nothing (`StandardFunction.total_cons`), so both give the same
double, however little the addition of doubles is associative. In the same way `Mean` is what
dividing the chain by `Len` gives, since no count but zero is equal to zero. Here both are followed
from the text of the formula to its value (`Session.execute_sum_and_mean`), for variables of any
names that are bound to numbers, and for any number of them but none.

The text of each formula is one of joined lexemes, so `Session.execute_joined` reduces what
executing it comes to to plain evaluation of an expression: a call on references (`Expr.callOn`), a
chain of additions (`Expr.sumOf`), or the quotient of the two (`Expr.sumOverCall`). A chain is
written without parentheses and has one level above its operands, however long it is. That is kept
by each further addition (`Expr.IsFlatSum.plusVariable`), and it is why a limit of three is enough
for all of them.

Plain evaluation of a chain is an induction on its variables (`Expr.run_plainEval_foldl`), and that
of a call on variables calls the function on their numbers (`Expr.run_plainEval_callOn`). What the
functions make of numbers is said before (`StandardFunction.sum_map_number` and those beside it).
-/

namespace SheetFormula

variable {σ : Type}

/-! ## Sums as chains of additions -/

/-- The variables are bound to the numbers, in order. -/
def Bindings.HasNumbers (b : Bindings σ) (names : List String) (xs : List Float) : Prop :=
  List.Forall₂ (fun name x => b.value? name = some (.number x)) names xs

namespace Expr

/-- References to variables. -/
def referencesTo (names : List String) : List Expr :=
  names.map (.reference · 0)

/-- The call of a function on variables. -/
def callOn (function : String) (names : List String) : Expr :=
  .call function (referencesTo names) 0

/-- One more addition of a variable. -/
def plusVariable (left : Expr) (name : String) : Expr :=
  .binary (.arithmetic .add) left (.reference name 0) 0

/-- The chain of additions of variables. -/
def sumOf (first : String) (others : List String) : Expr :=
  others.foldl plusVariable (.reference first 0)

variable {first : String} {others names : List String}

/-- The expression is a chain of additions, or the first operand of one: it is written without
parentheses, and what it is made of is one level below its chain. -/
structure IsFlatSum (e : Expr) (written : List Lexeme) : Prop where
  lexemes : e.lexemes = written
  writtenDepth : e.writtenDepth = 0
  tight : 1 ≤ e.level
  levels : e.levels + e.leftStep = 2

/-- One more addition goes on with the chain. -/
theorem IsFlatSum.plusVariable {e : Expr} {written : List Lexeme} (h : e.IsFlatSum written)
    (name : String) :
    (e.plusVariable name).IsFlatSum (written ++ [.symbol .plus, .identifier name]) := by
  have tight : decide (e.level < 1) = false := decide_eq_false (Nat.not_lt.mpr h.tight)
  constructor
  · change Lexeme.parenthesize (decide (e.level < 1)) e.lexemes ++
      [.symbol .plus, .identifier name] = _
    rw [tight, h.lexemes]
    rfl
  · change max (e.writtenDepth + (decide (e.level < 1)).toNat) 0 = 0
    rw [tight, h.writtenDepth]
    rfl
  · exact Nat.le_refl 1
  · change max (e.levels + e.leftStep) 2 = 2
    rw [h.levels, Nat.max_self]

theorem IsFlatSum.foldl {e : Expr} {written : List Lexeme} (h : e.IsFlatSum written) :
    (names.foldl Expr.plusVariable e).IsFlatSum
      (written ++ names.flatMap fun name => [.symbol .plus, .identifier name]) := by
  induction names generalizing e written with
  | nil => simpa using h
  | cons name names ih => simpa using ih (h.plusVariable name)

theorem isFlatSum_sumOf (first : String) (others : List String) :
    (sumOf first others).IsFlatSum (Lexeme.listed .plus first others) := by
  have start : (Expr.reference first 0).IsFlatSum [.identifier first] :=
    ⟨rfl, rfl, Nat.le_add_left 1 5, rfl⟩
  exact start.foldl

theorem lexemesAll_referencesTo : ∀ (first : String) (others : List String),
    lexemesAll (referencesTo (first :: others)) = Lexeme.listed .semicolon first others
  | first, [] => rfl
  | first, next :: others => by
    have rest := lexemesAll_referencesTo next others
    simp only [referencesTo, List.map_cons, lexemesAll] at rest ⊢
    rw [rest]
    rfl

theorem writtenDepthAll_referencesTo : writtenDepthAll (referencesTo names) = 0 := by
  induction names with
  | nil => rfl
  | cons name names ih => simpa [referencesTo, writtenDepthAll, writtenDepth] using ih

theorem levelsAll_referencesTo_le : levelsAll (referencesTo names) ≤ 1 := by
  induction names with
  | nil => exact Nat.zero_le 1
  | cons name names ih => exact max_le (Nat.le_refl 1) ih

/-! ## Values -/

variable {bindings : Bindings σ} {xs : List Float}

theorem run_plainEval_reference {name : String} {v : Value}
    (bound : bindings.value? name = some v) (position : Nat) (host : σ) :
    ((Expr.reference name position).plainEval bindings).run host = (.ok v, host) := by
  rw [plainEval, bound]
  rfl

/-- Variables that are bound to numbers are evaluated to these. -/
theorem run_plainEvalAll_referencesTo (bound : bindings.HasNumbers names xs) (host : σ) :
    (plainEvalAll bindings (referencesTo names)).run host = (.ok (xs.map .number), host) := by
  induction bound with
  | nil => rfl
  | cons first _ rest =>
    have value := run_plainEval_reference first 0 host
    exact run_bind_eq_ok.mpr ⟨_, host, value, run_bind_eq_ok.mpr ⟨_, host, rest, rfl⟩⟩

/-- The call of a function on variables is a call on the numbers that they are bound to. -/
theorem run_plainEval_callOn (bound : bindings.HasNumbers names xs) {function : String}
    {f : List Value → Except Error Value} (found : bindings.function? function = some (.ofPure f))
    (host : σ) : ((callOn function names).plainEval bindings).run host =
      (f (xs.map .number), host) := by
  rw [callOn, plainEval, found]
  simp only [run_bind, run_plainEvalAll_referencesTo bound host]
  rfl

/-- One more addition adds the number of its variable. -/
theorem run_plainEval_plusVariable {left : Expr} {name : String} {x y : Float} {host : σ}
    (start : (left.plainEval bindings).run host = (.ok (.number x), host))
    (bound : bindings.value? name = some (.number y)) :
    ((left.plusVariable name).plainEval bindings).run host = (.ok (.number (x + y)), host) := by
  have right := run_plainEval_reference bound 0 host
  rw [plusVariable, plainEval]
  exact run_bind_eq_ok.mpr ⟨_, host, start, run_bind_eq_ok.mpr ⟨_, host, right, rfl⟩⟩

/-- The additions of a chain add the numbers in order. -/
theorem run_plainEval_foldl (bound : bindings.HasNumbers names xs) {left : Expr} {x : Float}
    {host : σ} (start : (left.plainEval bindings).run host = (.ok (.number x), host)) :
    ((names.foldl plusVariable left).plainEval bindings).run host =
      (.ok (.number (xs.foldl (· + ·) x)), host) := by
  induction bound generalizing left x with
  | nil => exact start
  | cons first _ ih => exact ih (run_plainEval_plusVariable start first)

theorem run_plainEval_sumOf {x : Float} (bound : bindings.HasNumbers (first :: others) (x :: xs))
    (host : σ) : ((sumOf first others).plainEval bindings).run host =
      (.ok (.number (xs.foldl (· + ·) x)), host) := by
  obtain ⟨here, rest⟩ := List.forall₂_cons.mp bound
  exact run_plainEval_foldl rest (run_plainEval_reference here 0 host)

end Expr

/-! ## The functions on numbers -/

theorem Arithmetic.apply_divide {x y : Float} (nonzero : (y == 0) = false) (position : Nat) :
    Arithmetic.divide.apply (.number x) (.number y) position = .ok (.number (x / y)) := by
  have computed : Arithmetic.divide.compute? x y = some (x / y) := by
    rw [compute?, nonzero]
    rfl
  simp only [Arithmetic.apply, Value.operand, Bind.bind, Except.bind, computed]

namespace StandardFunction

theorem numbers_map_number (xs : List Float) : numbers (xs.map .number) = .ok xs := by
  induction xs with
  | nil => rfl
  | cons x xs ih =>
    unfold numbers at ih ⊢
    rw [List.map_cons, List.mapM_cons, ih]
    rfl

/-- The sum of some numbers is begun with the first of them. -/
theorem total_cons (x : Float) (xs : List Float) : total (x :: xs) = xs.foldl (· + ·) x := by
  rw [total, List.foldl_cons, Number.neg_zero_add]

theorem sum_map_number (xs : List Float) : sum (xs.map .number) = .ok (.number (total xs)) := by
  rw [sum, numbers_map_number]
  rfl

theorem len_map_number (xs : List Float) :
    len (xs.map .number) = .ok (.number (Float.ofNat xs.length)) := by
  rw [len, List.length_map]

theorem mean_map_number {xs : List Float} (nonempty : xs ≠ []) :
    mean (xs.map .number) = .ok (.number (total xs / Float.ofNat xs.length)) := by
  have some : (xs.map Value.number).isEmpty = false := by simpa using nonempty
  rw [mean, some, numbers_map_number]
  rfl

end StandardFunction

/-! ## Texts -/

/-- The text of a call on variables. -/
def callText (function : String) (names : List String) : String :=
  function ++ "(" ++ ";".intercalate names ++ ")"

/-- The text of a chain of additions of variables. -/
def sumText (names : List String) : String :=
  "+".intercalate names

namespace Expr

open Lexeme (Joinable joined)

variable {function first : String} {others : List String}

theorem lexemes_callOn : (callOn function (first :: others)).lexemes =
    [.identifier function] ++ .symbol .leftParen ::
      (Lexeme.listed .semicolon first others ++ [.symbol .rightParen]) := by
  rw [callOn, lexemes, lexemesAll_referencesTo]
  rfl

theorem writtenDepth_callOn : (callOn function (first :: others)).writtenDepth = 1 := by
  have arguments : writtenDepthAll (referencesTo (first :: others)) = 0 :=
    writtenDepthAll_referencesTo
  have call : (callOn function (first :: others)).writtenDepth =
    writtenDepthAll (referencesTo (first :: others)) + 1 := rfl
  rw [call, arguments]

theorem levels_callOn_le : (callOn function (first :: others)).levels ≤ 2 :=
  Nat.succ_le_succ levelsAll_referencesTo_le

/-- The quotient of a chain of additions of variables and a call on them. -/
def sumOverCall (function first : String) (others : List String) : Expr :=
  .binary (.arithmetic .divide) (sumOf first others) (callOn function (first :: others)) 0

/-- The lexemes of the quotient. The additions are in parentheses, even if there are none. -/
def sumOverCallLexemes (function first : String) (others : List String) : List Lexeme :=
  Lexeme.parenthesize true (sumOf first others).lexemes ++
    .symbol .slash :: (callOn function (first :: others)).lexemes

theorem isWritten_sumOverCall : (sumOverCall function first others).IsWritten
    (sumOverCallLexemes function first others) 1 := by
  have depth : max ((sumOf first others).writtenDepth + true.toNat)
      ((callOn function (first :: others)).writtenDepth + false.toNat) = 1 := by
    rw [(isFlatSum_sumOf first others).writtenDepth, writtenDepth_callOn]
    rfl
  rw [← depth]
  exact isWritten_binary (.arithmetic .divide) _ _ true false (fun loose => nomatch loose)
    fun _ => (by decide : 4 ≤ 6)

/-- The operators of the quotient are one chain, so it has no more levels than the call in it needs
as an operand. -/
theorem levels_sumOverCall_le : (sumOverCall function first others).levels ≤ 3 := by
  have chain := (isFlatSum_sumOf first others).levels
  have call : (callOn function (first :: others)).levels ≤ 2 := levels_callOn_le
  rw [sumOverCall, levels]
  omega

section Spelling

theorem toList_sumText : (sumText (first :: others)).toList =
    joined (sumOf first others).lexemes := by
  rw [(isFlatSum_sumOf first others).lexemes]
  exact Lexeme.toList_intercalate_names .plus first others

theorem toList_callText : (callText function (first :: others)).toList =
    joined (callOn function (first :: others)).lexemes := by
  have names : (";".intercalate (first :: others)).toList = _ :=
    Lexeme.toList_intercalate_names .semicolon first others
  rw [lexemes_callOn]
  simp [callText, names, joined, Lexeme.text, Symbol.text]

theorem toList_sumOverCallText :
    ("(" ++ sumText (first :: others) ++ ")/" ++ callText function (first :: others)).toList =
      joined (sumOverCallLexemes function first others) := by
  simp [toList_sumText, toList_callText, sumOverCallLexemes, Lexeme.parenthesize, joined,
    Lexeme.text, Symbol.text]

variable (names : ∀ name ∈ first :: others, (Lexeme.identifier name).WellFormed)
include names

theorem joinable_sumOf : Joinable (sumOf first others).lexemes := by
  rw [(isFlatSum_sumOf first others).lexemes]
  exact Lexeme.joinable_listed rfl names

variable (lexable : (Lexeme.identifier function).WellFormed)
include lexable

theorem joinable_callOn : Joinable (callOn function (first :: others)).lexemes := by
  rw [lexemes_callOn]
  exact (Joinable.singleton lexable).between rfl
    ((Lexeme.joinable_listed rfl names).between rfl .nil)

theorem joinable_sumOverCall : Joinable (sumOverCallLexemes function first others) := by
  have inner : Joinable (Lexeme.parenthesize true (sumOf first others).lexemes) :=
    Joinable.nil.between rfl ((joinable_sumOf names).between rfl .nil)
  exact inner.between rfl (joinable_callOn names lexable)

end Spelling

end Expr

/-! ## Sessions -/

theorem wellFormed_identifier {name : String} {c : Char} {tail : List Char}
    (spelling : name.toList = c :: tail) (alphabetic : Unicode.isAlphabetic c = true)
    (notNumeric : Unicode.isNumeric c = false)
    (within : (tail.all fun d => Unicode.isAlphabetic d || Unicode.isNumeric d) = true) :
    (Lexeme.identifier name).WellFormed := by
  refine ⟨c, tail, spelling, alphabetic, notNumeric, fun d mem => ?_⟩
  simpa using List.all_eq_true.mp within d mem

/-- The names of the standard functions stand for them, whatever other functions there are. -/
def Bindings.HasStandard (b : Bindings σ) : Prop :=
  ∀ name f, StandardFunction.ofName? name = some f → b.function? name = some (.ofPure f)

theorem Bindings.hasStandard_addStandard (b : Bindings σ) : b.addStandard.HasStandard := by
  intro name f found
  rw [function?_addStandard, found]
  rfl

namespace Session

open StandardFunction

variable {s : Session σ} {names : List String} {xs : List Float}

/-- A chain of additions of variables comes to the sum of their numbers. -/
theorem execute_sumText (nonempty : names ≠ [])
    (lexable : ∀ name ∈ names, (Lexeme.identifier name).WellFormed)
    (bound : s.bindings.HasNumbers names xs) (two : 2 ≤ s.limit) :
    s.execute (sumText names) = (.ok (.number (total xs)), s) := by
  cases bound with
  | nil => exact absurd rfl nonempty
  | @cons first x others ys here rest =>
    have flat := Expr.isFlatSum_sumOf first others
    have levels := flat.levels
    refine execute_joined (Expr.joinable_sumOf lexable) Expr.toList_sumText
      (Expr.isWritten_lexemes _) ?_ (by omega) ?_
    · rw [flat.writtenDepth]
      omega
    · rw [total_cons]
      exact Expr.run_plainEval_sumOf (.cons here rest) s.host

/-- The call of a standard function on variables comes to what it makes of their numbers. -/
theorem execute_callText {function : String} {f : List Value → Except Error Value} {v : Value}
    (nonempty : names ≠ []) (lexable : ∀ name ∈ names, (Lexeme.identifier name).WellFormed)
    (bound : s.bindings.HasNumbers names xs) (two : 2 ≤ s.limit)
    (spelled : (Lexeme.identifier function).WellFormed)
    (found : s.bindings.function? function = some (.ofPure f))
    (value : f (xs.map .number) = .ok v) :
    s.execute (callText function names) = (.ok v, s) := by
  obtain ⟨first, others, rfl⟩ := List.exists_cons_of_ne_nil nonempty
  refine execute_joined (Expr.joinable_callOn lexable spelled) Expr.toList_callText
    (Expr.isWritten_lexemes _) ?_ (Expr.levels_callOn_le.trans two) ?_
  · rw [Expr.writtenDepth_callOn]
    omega
  · rw [Expr.plainValue, Expr.run_plainEval_callOn bound found, value]

/-- The chain divided by how many variables there are comes to the mean of their numbers. -/
theorem execute_sumOverLen (nonempty : names ≠ [])
    (lexable : ∀ name ∈ names, (Lexeme.identifier name).WellFormed)
    (bound : s.bindings.HasNumbers names xs) (three : 3 ≤ s.limit)
    (found : s.bindings.function? "Len" = some (.ofPure len)) :
    s.execute ("(" ++ sumText names ++ ")/" ++ callText "Len" names) =
      (.ok (.number (total xs / Float.ofNat xs.length)), s) := by
  have spelled : (Lexeme.identifier "Len").WellFormed :=
    wellFormed_identifier rfl (by decide) (by decide) (by decide)
  cases bound with
  | nil => exact absurd rfl nonempty
  | @cons first x others ys here rest =>
    refine execute_joined (Expr.joinable_sumOverCall lexable spelled) Expr.toList_sumOverCallText
      Expr.isWritten_sumOverCall (by omega) (Expr.levels_sumOverCall_le.trans three) ?_
    have all : s.bindings.HasNumbers (first :: others) (x :: ys) := .cons here rest
    have sum := Expr.run_plainEval_sumOf all s.host
    have count := Expr.run_plainEval_callOn all found s.host
    rw [len_map_number] at count
    have nonzero := Number.ofNat_beq_zero (Nat.succ_pos ys.length)
    rw [Expr.plainValue, Expr.sumOverCall, Expr.plainEval]
    refine run_bind_eq_ok.mpr ⟨_, s.host, sum, run_bind_eq_ok.mpr ⟨_, s.host, count, ?_⟩⟩
    rw [run_ofExcept, total_cons]
    exact congrArg (·, s.host) (Arithmetic.apply_divide nonzero 0)

/-- For some variables, at least one, that are bound to numbers, `Sum` and a chain of additions come
to the same double, and so do `Mean` and the chain divided by `Len`. Under a limit of three levels
or more none of the four formulas fails. -/
theorem execute_sum_and_mean (nonempty : names ≠ [])
    (lexable : ∀ name ∈ names, (Lexeme.identifier name).WellFormed)
    (bound : s.bindings.HasNumbers names xs) (standard : s.bindings.HasStandard)
    (three : 3 ≤ s.limit) :
    s.execute (callText "Sum" names) = (.ok (.number (total xs)), s) ∧
      s.execute (sumText names) = s.execute (callText "Sum" names) ∧
      s.execute (callText "Mean" names) =
        (.ok (.number (total xs / Float.ofNat xs.length)), s) ∧
      s.execute ("(" ++ sumText names ++ ")/" ++ callText "Len" names) =
        s.execute (callText "Mean" names) := by
  have two : 2 ≤ s.limit := by omega
  have numbers : xs ≠ [] := by
    rintro rfl
    cases bound
    exact nonempty rfl
  have sum : s.execute (callText "Sum" names) = (.ok (.number (total xs)), s) := by
    refine execute_callText nonempty lexable bound two ?_ (standard "Sum" sum rfl)
      (sum_map_number xs)
    exact wellFormed_identifier rfl (by decide) (by decide) (by decide)
  have mean : s.execute (callText "Mean" names) =
      (.ok (.number (total xs / Float.ofNat xs.length)), s) := by
    refine execute_callText nonempty lexable bound two ?_ (standard "Mean" mean rfl)
      (mean_map_number numbers)
    exact wellFormed_identifier rfl (by decide) (by decide) (by decide)
  have chain := execute_sumText nonempty lexable bound two
  have quotient := execute_sumOverLen nonempty lexable bound three (standard "Len" len rfl)
  exact ⟨sum, chain.trans sum.symm, mean, quotient.trans mean.symm⟩

/-- The standard functions and three variables, one of which has the name of a function, under the
least limit. -/
def withTenths : Session Unit :=
  ⟨((Bindings.empty.addStandard.setVariable "x" (.number 0.1)).setVariable "y"
    (.number 0.2)).setVariable "Sum" (.number 0.3), 3, ()⟩

/-- The sum of a tenth, two tenths and three tenths is not six tenths, either way. -/
theorem execute_sum_and_mean_withTenths :
    withTenths.bindings.HasNumbers ["x", "y", "Sum"] [0.1, 0.2, 0.3] ∧
      withTenths.bindings.HasStandard ∧
      withTenths.execute "Sum(x;y;Sum)" =
        (.ok (.number 0.6000000000000001), withTenths) ∧
      withTenths.execute "x+y+Sum" = withTenths.execute "Sum(x;y;Sum)" ∧
      withTenths.execute "(x+y+Sum)/Len(x;y;Sum)" = withTenths.execute "Mean(x;y;Sum)" := by
  have bound : withTenths.bindings.HasNumbers ["x", "y", "Sum"] [0.1, 0.2, 0.3] := by
    refine .cons ?_ (.cons ?_ (.cons ?_ .nil)) <;>
      simp [withTenths, Bindings.value?_setVariable]
  have standard : withTenths.bindings.HasStandard :=
    Bindings.hasStandard_addStandard Bindings.empty
  have lexable : ∀ name ∈ ["x", "y", "Sum"], (Lexeme.identifier name).WellFormed := by
    simp only [List.forall_mem_cons]
    refine ⟨?_, ?_, ?_, by simp⟩ <;>
      exact wellFormed_identifier rfl (by decide) (by decide) (by decide)
  obtain ⟨sum, chain, -, quotient⟩ :=
    execute_sum_and_mean (List.cons_ne_nil "x" _) lexable bound standard (Nat.le_refl 3)
  have total : total [0.1, 0.2, 0.3] = 0.6000000000000001 := by decide +kernel
  rw [total] at sum
  exact ⟨bound, standard, sum, chain, quotient⟩

end Session

end SheetFormula
