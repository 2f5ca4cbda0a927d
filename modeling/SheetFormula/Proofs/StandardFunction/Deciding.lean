import SheetFormula.StandardFunction

/-!
# The first argument that decides

`And` and `Or` look at their arguments in order, and so do `Ifs` at its conditions. What comes
after the first one that decides is of no account, whatever it is, and an argument that is no
boolean decides too, by failing. All of this together is `decided_by_first`.

A conjunction of two lists is that of the first one, unless this is true and the second one is
asked (`and_append`). `Or` is `And` with all booleans turned into their opposites
(`or_eq_negated_and`), an error being its own opposite, and so the same about disjunctions need not
be proved again (`or_append_of_false`, `or_append_of_ne_false`).

The arguments of `Ifs` are conditions at the even places and values at the odd ones. `DecidesAt`
says that a condition is the first that is not false, and with which value. Among pairs there is
such a condition or all are false (`allFalse_or_decidesAt`), and either settles what is chosen
(`DecidesAt.chooseAmong_eq`, `chooseAmong_of_allFalse`). As a condition that is true gives its
value and any other one an error, the choices that succeed are known exactly
(`chooseAmong_eq_ok_iff`), and so are those that find nothing (`chooseAmong_eq_none_iff`).

What does not bear on `DecidesAt` does not bear on the choice: later pairs, whatever they are
(`chooseAmong_take_append`), and for an error the values (`chooseAmong_eq_error_of_conditions`).
-/

namespace SheetFormula.StandardFunction

variable {xs ys arguments rest : List Value} {condition value v : Value} {i : Nat}

theorem boolean_eq_error (h : v.kind ≠ .boolean) :
    boolean v = .error (.function ("expected boolean, got " ++ v.kind.name)) := by
  cases v with
  | boolean b => exact absurd rfl h
  | number | string => rfl

/-! ## Conjunction and disjunction -/

/-- The opposite of a boolean, and any other value itself. -/
def negated : Value → Value
  | .boolean b => .boolean !b
  | v => v

/-- The later arguments of a conjunction count only if the earlier ones are all true. -/
theorem and_append (xs ys : List Value) : and (xs ++ ys) = (and xs).bind fun
    | .boolean true => and ys
    | v => .ok v := by
  induction xs with
  | nil => rfl
  | cons v xs ih =>
    cases v with
    | boolean b => cases b with
      | true => exact ih
      | false => rfl
    | number | string => rfl

theorem and_append_of_true (h : and xs = .ok (.boolean true)) : and (xs ++ ys) = and ys := by
  rw [and_append, h]
  rfl

theorem and_append_of_ne_true (h : and xs ≠ .ok (.boolean true)) :
    and (xs ++ ys) = and xs := by
  rw [and_append]
  cases hxs : and xs with
  | error e => rfl
  | ok v =>
    change (match v with
      | .boolean true => and ys
      | v => .ok v) = _
    split
    · exact absurd hxs h
    · rfl

/-- A disjunction is a conjunction of opposites. -/
theorem or_eq_negated_and (xs : List Value) :
    or xs = (and (xs.map negated)).map negated := by
  induction xs with
  | nil => rfl
  | cons v xs ih =>
    cases v with
    | boolean b => cases b with
      | true => rfl
      | false => exact ih
    | number | string => rfl

theorem map_negated_eq_ok_iff {x : Except Error Value} {b : Bool} :
    x.map negated = .ok (.boolean b) ↔ x = .ok (.boolean !b) := by
  cases x with
  | error e => simp [Except.map]
  | ok v =>
    cases v with
    | boolean c => cases b <;> cases c <;> simp [Except.map, negated]
    | number | string => simp [Except.map, negated]

theorem or_append_of_false (h : or xs = .ok (.boolean false)) : or (xs ++ ys) = or ys := by
  rw [or_eq_negated_and, map_negated_eq_ok_iff] at h
  rw [or_eq_negated_and, List.map_append, and_append_of_true h, ← or_eq_negated_and]

theorem or_append_of_ne_false (h : or xs ≠ .ok (.boolean false)) : or (xs ++ ys) = or xs := by
  rw [or_eq_negated_and, Ne, map_negated_eq_ok_iff] at h
  rw [or_eq_negated_and, List.map_append, and_append_of_ne_true h, ← or_eq_negated_and]

/-! ## Pairs of a condition and a value -/

/-- Of the conditions, which stand at the even places, the `i`-th is the first that is not false,
and `value` comes after it. -/
structure DecidesAt (arguments : List Value) (i : Nat) (condition value : Value) : Prop where
  before : ∀ j < i, arguments[2 * j]? = some (.boolean false)
  condition_eq : arguments[2 * i]? = some condition
  value_eq : arguments[2 * i + 1]? = some value
  not_false : condition ≠ .boolean false

/-- All conditions are false. -/
def AllFalse (arguments : List Value) : Prop :=
  ∀ j < arguments.length / 2, arguments[2 * j]? = some (.boolean false)

namespace DecidesAt

/-- What decides after a false condition and its value decides in the whole. -/
theorem cons (h : DecidesAt rest i condition value) (first : Value) :
    DecidesAt (.boolean false :: first :: rest) (i + 1) condition value where
  before
    | 0, _ => rfl
    | j + 1, lt => h.before j (Nat.lt_of_succ_lt_succ lt)
  condition_eq := h.condition_eq
  value_eq := h.value_eq
  not_false := h.not_false

/-- Later pairs do not matter to what decides. -/
theorem take_append (h : DecidesAt arguments i condition value) {n : Nat} (le : i < n)
    (later : List Value) : DecidesAt (arguments.take (2 * n) ++ later) i condition value := by
  have long : 2 * i + 1 < arguments.length := (List.getElem?_eq_some_iff.mp h.value_eq).1
  have same {k : Nat} (lt : k < 2 * i + 2) :
      (arguments.take (2 * n) ++ later)[k]? = arguments[k]? := by
    rw [List.getElem?_append_left (by rw [List.length_take]; omega),
      List.getElem?_take_of_lt (by omega)]
  exact ⟨fun j lt => (same (by omega)).trans (h.before j lt),
    (same (by omega)).trans h.condition_eq,
    (same (by omega)).trans h.value_eq, h.not_false⟩

/-- The condition that decides says whether its value is chosen. -/
theorem firstTrue_eq : ∀ {i : Nat} {arguments : List Value},
    DecidesAt arguments i condition value →
      firstTrue arguments = (boolean condition).map fun _ => value
  | 0, arguments, h => by
    obtain ⟨-, hcondition, hvalue, notFalse⟩ := h
    match arguments with
    | c :: w :: rest =>
      obtain rfl : c = condition := Option.some.inj hcondition
      obtain rfl : w = value := Option.some.inj hvalue
      cases c with
      | boolean b => cases b with
        | true => rfl
        | false => exact absurd rfl notFalse
      | number | string => rfl
  | i + 1, arguments, h => by
    have first := h.before 0 (Nat.succ_pos i)
    have later := h.value_eq
    match arguments with
    | c :: w :: rest =>
      obtain rfl : c = .boolean false := Option.some.inj first
      have inner : DecidesAt rest i condition value :=
        ⟨fun j lt => h.before (j + 1) (Nat.succ_lt_succ lt), h.condition_eq, h.value_eq,
          h.not_false⟩
      exact inner.firstTrue_eq
    | [c] => simp at later

end DecidesAt

/-- Where all conditions are false nothing is chosen. -/
theorem firstTrue_of_allFalse (h : AllFalse arguments) :
    firstTrue arguments = .error (.function "Ifs: none of the conditions is true") := by
  fun_induction firstTrue arguments with
  | case1 c w rest ih =>
    have first : some c = some (Value.boolean false) := h 0 (by simp)
    obtain rfl := Option.some.inj first
    refine ih fun j lt => h (j + 1) ?_
    simp only [List.length_cons]
    omega
  | case2 => rfl

/-- Among pairs some condition decides, or all are false. -/
theorem allFalse_or_decidesAt (even : arguments.length % 2 = 0) :
    AllFalse arguments ∨ ∃ i condition value, DecidesAt arguments i condition value := by
  fun_induction firstTrue arguments with
  | case1 c w rest ih =>
    by_cases first : c = .boolean false
    · subst first
      rw [List.length_cons, List.length_cons] at even
      rcases ih (by omega) with all | ⟨i, condition, value, decides⟩
      · refine .inl fun j lt => ?_
        cases j with
        | zero => rfl
        | succ j =>
          refine all j ?_
          simp only [List.length_cons] at lt
          omega
      · exact .inr ⟨i + 1, condition, value, decides.cons w⟩
    · exact .inr ⟨0, c, w, fun j lt => absurd lt (Nat.not_lt_zero j), rfl, rfl, first⟩
  | case2 arguments short =>
    match arguments with
    | [] => exact .inl fun j lt => absurd lt (Nat.not_lt_zero j)
    | [c] => simp at even
    | c :: w :: rest => exact (short c w rest rfl).elim

/-! ## The choice among pairs -/

theorem chooseAmong_eq_firstTrue (nonempty : arguments ≠ []) (even : arguments.length % 2 = 0) :
    chooseAmong arguments = firstTrue arguments := by
  simp [chooseAmong, nonempty, even]

theorem DecidesAt.chooseAmong_eq (h : DecidesAt arguments i condition value)
    (even : arguments.length % 2 = 0) :
    chooseAmong arguments = (boolean condition).map fun _ => value := by
  have nonempty : arguments ≠ [] := by
    rintro rfl
    cases h.value_eq
  rw [chooseAmong_eq_firstTrue nonempty even, h.firstTrue_eq]

theorem chooseAmong_of_allFalse (nonempty : arguments ≠ []) (even : arguments.length % 2 = 0)
    (h : AllFalse arguments) :
    chooseAmong arguments = .error (.function "Ifs: none of the conditions is true") := by
  rw [chooseAmong_eq_firstTrue nonempty even, firstTrue_of_allFalse h]

/-- The value after a condition is chosen exactly if the condition is true and no other one decides
before it. -/
theorem chooseAmong_eq_ok_iff (nonempty : arguments ≠ []) (even : arguments.length % 2 = 0) :
    chooseAmong arguments = .ok v ↔ ∃ i, DecidesAt arguments i (.boolean true) v := by
  constructor
  · intro chosen
    rcases allFalse_or_decidesAt even with all | ⟨i, condition, value, decides⟩
    · cases chosen.symm.trans (chooseAmong_of_allFalse nonempty even all)
    · have same := chosen.symm.trans (decides.chooseAmong_eq even)
      cases condition with
      | boolean b => cases b with
        | true =>
          obtain rfl : v = value := Except.ok.inj same
          exact ⟨i, decides⟩
        | false => exact absurd rfl decides.not_false
      | number | string => cases same
  · rintro ⟨i, decides⟩
    exact decides.chooseAmong_eq even

/-- Nothing is chosen and no condition refused exactly if all conditions are false. -/
theorem chooseAmong_eq_none_iff (nonempty : arguments ≠ []) (even : arguments.length % 2 = 0) :
    chooseAmong arguments = .error (.function "Ifs: none of the conditions is true") ↔
      AllFalse arguments := by
  refine ⟨fun failed => ?_, chooseAmong_of_allFalse nonempty even⟩
  rcases allFalse_or_decidesAt even with all | ⟨i, condition, value, decides⟩
  · exact all
  · have same := failed.symm.trans (decides.chooseAmong_eq even)
    cases condition with
    | boolean b => cases b <;> cases same
    | number | string => simp [boolean, Except.map, Value.kind, Value.Kind.name] at same

/-- The error of a choice depends on the conditions alone, not on the values. -/
theorem chooseAmong_eq_error_of_conditions {others : List Value} {e : Error}
    (nonempty : arguments ≠ []) (even : arguments.length % 2 = 0)
    (length : others.length = arguments.length)
    (conditions : ∀ j, others[2 * j]? = arguments[2 * j]?)
    (failed : chooseAmong arguments = .error e) : chooseAmong others = .error e := by
  rcases allFalse_or_decidesAt even with all | ⟨i, condition, value, decides⟩
  · have nonempty' : others ≠ [] := by
      rintro rfl
      exact nonempty (List.length_eq_zero_iff.mp length.symm)
    have all' : AllFalse others := fun j lt => (conditions j).trans (all j (length ▸ lt))
    rw [← failed, chooseAmong_of_allFalse nonempty even all,
      chooseAmong_of_allFalse nonempty' (length ▸ even) all']
  · have long : 2 * i + 1 < arguments.length := (List.getElem?_eq_some_iff.mp decides.value_eq).1
    have long' : 2 * i + 1 < others.length := length ▸ long
    have decides' : DecidesAt others i condition others[2 * i + 1] :=
      ⟨fun j lt => (conditions j).trans (decides.before j lt),
        (conditions i).trans decides.condition_eq, List.getElem?_eq_getElem _, decides.not_false⟩
    rw [decides.chooseAmong_eq even] at failed
    rw [decides'.chooseAmong_eq (length ▸ even)]
    cases condition with
    | boolean b => cases failed
    | number | string => exact failed

/-- What comes after a true condition and its value is of no account. -/
theorem chooseAmong_take_append (even : arguments.length % 2 = 0)
    (trueAt : arguments[2 * i]? = some (.boolean true)) {later : List Value}
    (pairs : later.length % 2 = 0) :
    chooseAmong (arguments.take (2 * (i + 1)) ++ later) = chooseAmong arguments := by
  have inside : 2 * i < arguments.length := (List.getElem?_eq_some_iff.mp trueAt).1
  have even' : (arguments.take (2 * (i + 1)) ++ later).length % 2 = 0 := by
    rw [List.length_append, List.length_take]
    omega
  rcases allFalse_or_decidesAt even with all | ⟨j, condition, value, decides⟩
  · have falseAt := trueAt.symm.trans (all i (by omega))
    simp at falseAt
  · have le : j ≤ i := by
      refine Nat.le_of_not_lt fun lt => ?_
      have falseAt := trueAt.symm.trans (decides.before i lt)
      simp at falseAt
    rw [decides.chooseAmong_eq even,
      (decides.take_append (Nat.lt_succ_of_le le) later).chooseAmong_eq even']

/-- With `true` as its second condition a choice among two pairs is a choice by one condition. -/
theorem chooseAmong_otherwise (condition a b : Value) :
    chooseAmong [condition, a, .boolean true, b] = choose [condition, a, b] := by
  rw [chooseAmong_eq_firstTrue (List.cons_ne_nil _ _) (by simp)]
  cases condition with
  | boolean c => cases c <;> rfl
  | number | string => rfl

/-- A conjunction is decided by its first arguments unless these are all true, a disjunction unless
they are all false, and each is the other one of the opposites. Among pairs of a condition and a
value the value after the first true condition is chosen if all conditions before are false; the
first condition that is not false is refused if it is no boolean; and there is no choice exactly if
all conditions are false. So the pairs after a true condition do not matter, and the values are not
looked at. -/
theorem decided_by_first :
    (∀ xs ys, (and xs = .ok (.boolean true) → and (xs ++ ys) = and ys) ∧
      (and xs ≠ .ok (.boolean true) → and (xs ++ ys) = and xs)) ∧
    (∀ xs ys, (or xs = .ok (.boolean false) → or (xs ++ ys) = or ys) ∧
      (or xs ≠ .ok (.boolean false) → or (xs ++ ys) = or xs)) ∧
    (∀ xs, or xs = (and (xs.map negated)).map negated) ∧
    (∀ arguments : List Value, arguments ≠ [] → arguments.length % 2 = 0 →
      (∀ v, chooseAmong arguments = .ok v ↔ ∃ i, DecidesAt arguments i (.boolean true) v) ∧
      (∀ i condition value, DecidesAt arguments i condition value → condition.kind ≠ .boolean →
        chooseAmong arguments =
          .error (.function ("expected boolean, got " ++ condition.kind.name))) ∧
      (chooseAmong arguments = .error (.function "Ifs: none of the conditions is true") ↔
        AllFalse arguments) ∧
      (∀ (i : Nat) (later : List Value), arguments[2 * i]? = some (.boolean true) →
        later.length % 2 = 0 →
        chooseAmong (arguments.take (2 * (i + 1)) ++ later) = chooseAmong arguments) ∧
      (∀ others : List Value, others.length = arguments.length →
        (∀ j, others[2 * j]? = arguments[2 * j]?) →
        ∀ e, chooseAmong others = .error e ↔ chooseAmong arguments = .error e)) ∧
    ∀ condition a b, chooseAmong [condition, a, .boolean true, b] = choose [condition, a, b] := by
  refine ⟨fun xs ys => ⟨and_append_of_true, and_append_of_ne_true⟩,
    fun xs ys => ⟨or_append_of_false, or_append_of_ne_false⟩, or_eq_negated_and, ?_,
    chooseAmong_otherwise⟩
  intro arguments nonempty even
  refine ⟨fun v => chooseAmong_eq_ok_iff nonempty even, ?_, chooseAmong_eq_none_iff nonempty even,
    fun i later trueAt pairs => chooseAmong_take_append even trueAt pairs, ?_⟩
  · intro i condition value decides noBoolean
    rw [decides.chooseAmong_eq even, boolean_eq_error noBoolean]
    rfl
  · intro others length conditions e
    have nonempty' : others ≠ [] := by
      rintro rfl
      exact nonempty (List.length_eq_zero_iff.mp length.symm)
    exact ⟨chooseAmong_eq_error_of_conditions nonempty' (length ▸ even) length.symm
        fun j => (conditions j).symm,
      chooseAmong_eq_error_of_conditions nonempty even length conditions⟩

/-- The second condition of three pairs is true, and the third is no boolean. -/
def secondOfThree : List Value :=
  [.boolean false, .string "a", .boolean true, .number 1, .number 2, .boolean false]

/-- The second condition decides, whatever comes after its value. Made false it leaves the decision
to the third, which is refused. -/
theorem decided_by_first_of_three :
    (and [.boolean true] = .ok (.boolean true) ∧
      and ([.boolean true] ++ [.number 2]) = and [.number 2]) ∧
    (or [.boolean true] ≠ .ok (.boolean false) ∧
      or ([.boolean true] ++ [.number 2]) = .ok (.boolean true)) ∧
    (secondOfThree ≠ [] ∧ secondOfThree.length % 2 = 0 ∧
      secondOfThree[2 * 1]? = some (.boolean true) ∧ [Value.string "b", .number 3].length % 2 = 0 ∧
      chooseAmong secondOfThree = .ok (.number 1) ∧
      chooseAmong (secondOfThree.take (2 * (1 + 1)) ++ [.string "b", .number 3]) =
        .ok (.number 1)) ∧
    (DecidesAt (secondOfThree.set 2 (.boolean false)) 2 (.number 2) (.boolean false) ∧
      chooseAmong (secondOfThree.set 2 (.boolean false)) =
        .error (.function "expected boolean, got number")) := by
  obtain ⟨conjunction, disjunction, -, choice, -⟩ := decided_by_first
  have nonempty : secondOfThree ≠ [] := List.cons_ne_nil _ _
  have even : secondOfThree.length % 2 = 0 := rfl
  have decides : DecidesAt secondOfThree 1 (.boolean true) (.number 1) :=
    ⟨fun | 0, _ => rfl, rfl, rfl, by simp⟩
  have refused : DecidesAt (secondOfThree.set 2 (.boolean false)) 2 (.number 2) (.boolean false) :=
    ⟨fun | 0, _ => rfl | 1, _ => rfl, rfl, rfl, by simp⟩
  obtain ⟨chosen, -, -, later, -⟩ := choice secondOfThree nonempty even
  obtain ⟨-, error, -⟩ := choice (secondOfThree.set 2 (.boolean false)) (List.cons_ne_nil _ _) rfl
  have first : chooseAmong secondOfThree = .ok (.number 1) := (chosen _).mpr ⟨1, decides⟩
  have isTrue : or [.boolean true] = .ok (.boolean true) := rfl
  have notFalse : or [.boolean true] ≠ .ok (.boolean false) := by simp [isTrue]
  exact ⟨⟨rfl, (conjunction _ _).1 rfl⟩, ⟨notFalse, (disjunction _ _).2 notFalse⟩,
    ⟨nonempty, even, rfl, rfl, first, (later 1 [.string "b", .number 3] rfl rfl).trans first⟩,
    refused, error 2 _ _ refused (by simp [Value.kind])⟩

end SheetFormula.StandardFunction
