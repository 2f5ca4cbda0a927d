import SheetFormula.Proofs.Evaluation.MentionedNames

/-!
# Kinds of expressions

An expression has a kind if its operators take the kinds of their operands, the functions it calls
being declared to return values of one kind each (`Expr.kind?`). Under functions that keep to what
is declared (`Bindings.Provides`), a value of the expression is of its kind, and evaluation never
fails for the sake of a kind or of a name (`Expr.value_of_kind?`). The errors that remain depend on
the values themselves, on the limit or on the functions (`Error.BeyondKinds`).

Each operator keeps to its kinds: between values that it takes it gives a value of the kind that it
is said to give, or fails for a division by zero (`Operator.apply_of_kind?`). A sign does not fail
on a number (`Sign.apply_of_kind?`), and a literal gives a number or is none
(`literalValue_meets`). These are the only places where kinds are looked into.

`Yields` carries that through the steps of an evaluation: from every state of the host functions a
computation has a result with a certain property, or it fails with an error that kinds do not
exclude. If a second computation yields something for every result with this property, then both
one after the other do (`Yields.bind`). Guarded evaluation of an expression with a kind yields
values of that kind whatever room there is (`Expr.yields_of_kind?`), by induction on the tree, so
that a limit needs no case of its own.
-/

namespace SheetFormula

variable {σ α β : Type}

/-! ## Operators -/

/-- The kind of the values that a sign gives before values of a kind, if it takes them. -/
def Sign.kind? (_ : Sign) : Value.Kind → Option Value.Kind
  | .number => some .number
  | _ => none

/-- The kind of the values that an operator gives for operands of two kinds, if it takes them. -/
def Operator.kind? : Operator → Value.Kind → Value.Kind → Option Value.Kind
  | .arithmetic _, .number, .number => some .number
  | .arithmetic _, _, _ => none
  | .comparison .equal, _, _ => some .boolean
  | .comparison _, .number, .number | .comparison _, .string, .string => some .boolean
  | .comparison _, _, _ => none

/-- The errors that the kinds of an expression do not exclude. -/
inductive Error.BeyondKinds (limit : Nat) : Error → Prop where
  | divisionByZero (position : Nat) : BeyondKinds limit (.divisionByZero position)
  | invalidNumber (text : String) (position : Nat) : BeyondKinds limit (.invalidNumber text position)
  | nestingTooDeep (position : Nat) : BeyondKinds limit (.nestingTooDeep limit position)
  | function (message : String) : BeyondKinds limit (.function message)

/-- The outcome is a result that satisfies `P`, or an error that kinds do not exclude. -/
def Meets (limit : Nat) (P : α → Prop) : Except Error α → Prop
  | .ok a => P a
  | .error e => e.BeyondKinds limit

theorem literalValue_meets (limit : Nat) (text : String) (position : Nat) :
    Meets limit (·.kind = .number) (literalValue text position) := by
  unfold literalValue
  split
  · rfl
  · exact .invalidNumber text position

/-- A sign before a value that it takes does not fail. -/
theorem Sign.apply_of_kind? {sign : Sign} {v : Value} {k : Value.Kind}
    (h : sign.kind? v.kind = some k) (limit position : Nat) :
    Meets limit (·.kind = k) (sign.apply v position) := by
  cases v with
  | number x =>
    obtain rfl := Option.some.inj h
    cases sign <;> rfl
  | string | boolean => cases h

theorem Arithmetic.apply_numbers (op : Arithmetic) (x y : Float) (position : Nat) :
    op.apply (.number x) (.number y) position = match op.compute? x y with
      | some z => .ok (.number z)
      | none => .error (.divisionByZero position) :=
  rfl

/-- An operator between values that it takes fails at most for a division by zero. -/
theorem Operator.apply_of_kind? {op : Operator} {x y : Value} {k : Value.Kind}
    (h : op.kind? x.kind y.kind = some k) (limit position : Nat) :
    Meets limit (·.kind = k) (op.apply x y position) := by
  cases op with
  | arithmetic op =>
    cases x with
    | number x =>
      cases y with
      | number y =>
        obtain rfl := Option.some.inj h
        rw [Operator.apply, Arithmetic.apply_numbers]
        split
        · rfl
        · exact .divisionByZero position
      | string | boolean => cases h
    | string | boolean => cases h
  | comparison op =>
    cases op with
    | equal =>
      obtain rfl := Option.some.inj h
      rfl
    | less | greater | lessEqual | greaterEqual =>
      cases x <;> cases y <;> cases h <;> rfl

/-! ## Kinds -/

/-- The function gives values of one kind only, and fails only with a message of its own. -/
def HostFunction.Returns (f : HostFunction σ) (k : Value.Kind) : Prop :=
  ∀ arguments host, (∃ v, (f arguments host).1 = .ok v ∧ v.kind = k) ∨
    ∃ message, (f arguments host).1 = .error (.function message)

/-- Each of the names for which a kind is declared stands for a function that returns it. -/
def Bindings.Provides (bindings : Bindings σ) (declared : String → Option Value.Kind)
    (names : List String) : Prop :=
  ∀ name ∈ names, ∀ k, declared name = some k →
    ∃ f, bindings.function? name = some f ∧ f.Returns k

namespace Bindings.Provides

variable {bindings : Bindings σ} {declared : String → Option Value.Kind}
  {names names' : List String}

theorem left (h : bindings.Provides declared (names ++ names')) :
    bindings.Provides declared names :=
  fun name mem => h name (List.mem_append_left _ mem)

theorem right (h : bindings.Provides declared (names ++ names')) :
    bindings.Provides declared names' :=
  fun name mem => h name (List.mem_append_right _ mem)

end Bindings.Provides

namespace Expr

variable (bindings : Bindings σ) (declared : String → Option Value.Kind)

mutual

/-- The kind of an expression, if it has one: a variable is of the kind of its value, and a call is
of the kind declared for its function if all arguments have kinds. -/
def kind? : Expr → Option Value.Kind
  | .number .. => some .number
  | .string .. => some .string
  | .reference name _ => (bindings.value? name).map Value.kind
  | .unary sign operand _ => (kind? operand).bind sign.kind?
  | .binary op left right _ => (kind? left).bind fun k => (kind? right).bind (op.kind? k)
  | .call name arguments _ => if haveKinds arguments then declared name else none

/-- Whether all expressions of a list have kinds. -/
def haveKinds : List Expr → Bool
  | [] => true
  | e :: others => (kind? e).isSome && haveKinds others

end

end Expr

/-! ## Computations -/

/-- Whatever the state of the host functions, the action has a result that satisfies `P`, or it
fails with an error that kinds do not exclude. -/
def Yields (limit : Nat) (P : α → Prop) (action : HostAction σ α) : Prop :=
  ∀ host, Meets limit P (action.run host).1

namespace Yields

variable {limit : Nat} {P : α → Prop} {Q : β → Prop}

theorem pure {a : α} (h : P a) : Yields limit P (Pure.pure a : HostAction σ α) :=
  fun _ => h

theorem throw {e : Error} (h : e.BeyondKinds limit) :
    Yields limit P (MonadExcept.throw e : HostAction σ α) :=
  fun _ => h

theorem ofExcept {x : Except Error α} (h : Meets limit P x) :
    Yields limit P (MonadExcept.ofExcept x : HostAction σ α) := by
  intro host
  rw [run_ofExcept]
  exact h

theorem call {f : HostFunction σ} {k : Value.Kind} (returns : f.Returns k) (values : List Value) :
    Yields limit (·.kind = k) (HostAction.call f values) := by
  intro host
  change Meets limit (·.kind = k) (f values host).1
  rcases returns values host with ⟨v, succeeded, kind⟩ | ⟨message, failed⟩
  · rw [succeeded]
    exact kind
  · rw [failed]
    exact .function message

theorem bind {x : HostAction σ α} {f : α → HostAction σ β} (first : Yields limit P x)
    (rest : ∀ a, P a → Yields limit Q (f a)) : Yields limit Q (x >>= f) := by
  intro host
  have here := first host
  rw [run_bind]
  generalize x.run host = outcome at here ⊢
  obtain ⟨_ | a, after⟩ := outcome
  · exact here
  · exact rest a here after

end Yields

/-! ## Expressions -/

namespace Expr

variable {bindings : Bindings σ} {declared : String → Option Value.Kind} {limit : Nat}

mutual

/-- An expression with a kind yields values of that kind. -/
theorem yields_of_kind? : ∀ {e : Expr} {k : Value.Kind} (room : Nat),
    e.kind? bindings declared = some k → bindings.Provides declared e.callees →
      Yields limit (·.kind = k) (e.guardedEval bindings limit room)
  | e, _, 0, _, _ => by
    rw [guardedEval]
    exact Yields.throw (.nestingTooDeep e.position)
  | .number text position, _, room + 1, known, _ => by
    obtain rfl := Option.some.inj known
    rw [guardedEval]
    exact Yields.ofExcept (literalValue_meets limit text position)
  | .string .., _, room + 1, known, _ => by
    obtain rfl := Option.some.inj known
    rw [guardedEval]
    exact Yields.pure rfl
  | .reference name position, _, room + 1, known, _ => by
    obtain ⟨v, found, rfl⟩ := Option.map_eq_some_iff.mp known
    rw [guardedEval, found]
    exact Yields.pure rfl
  | .unary sign operand position, _, room + 1, known, provides => by
    obtain ⟨k, hk, taken⟩ := Option.bind_eq_some_iff.mp known
    have inner : bindings.Provides declared operand.callees := provides
    rw [guardedEval]
    refine (yields_of_kind? room hk inner).bind fun v hv => Yields.ofExcept ?_
    subst hv
    exact Sign.apply_of_kind? taken limit position
  | .binary op left right position, _, room + 1, known, provides => by
    obtain ⟨k, hleft, known⟩ := Option.bind_eq_some_iff.mp known
    obtain ⟨k', hright, taken⟩ := Option.bind_eq_some_iff.mp known
    rw [callees_binary] at provides
    rw [guardedEval]
    refine (yields_of_kind? _ hleft provides.left).bind fun x hx => ?_
    refine (yields_of_kind? room hright provides.right).bind fun y hy => Yields.ofExcept ?_
    subst hx hy
    exact Operator.apply_of_kind? taken limit position
  | .call name arguments position, _, room + 1, known, provides => by
    rw [kind?] at known
    split at known
    · next kinds =>
      rw [callees_call] at provides
      obtain ⟨f, found, returns⟩ := provides.right name List.mem_cons_self _ known
      rw [guardedEval, found]
      exact (yields_of_haveKinds room kinds provides.left).bind fun values _ =>
        Yields.call returns values
    · cases known

theorem yields_of_haveKinds : ∀ {es : List Expr} (room : Nat),
    haveKinds bindings declared es = true → bindings.Provides declared (calleesAll es) →
      Yields limit (fun _ => True) (guardedEvalAll bindings limit room es)
  | [], room, _, _ => by
    rw [guardedEvalAll]
    exact Yields.pure trivial
  | e :: others, room, kinds, provides => by
    rw [haveKinds, Bool.and_eq_true] at kinds
    obtain ⟨k, hk⟩ := Option.isSome_iff_exists.mp kinds.1
    rw [calleesAll_cons] at provides
    rw [guardedEvalAll]
    refine (yields_of_kind? room hk provides.left).bind fun v _ => ?_
    exact (yields_of_haveKinds room kinds.2 provides.right).bind fun vs _ => Yields.pure trivial

end

/-- An expression that has a kind has a value of that kind or none. Evaluation then ends with a
division by zero, a number literal without a value, the error of the limit or the message of a
function. No operator meets a value that it does not take, and every name stands for something. -/
theorem value_of_kind? {e : Expr} {k : Value.Kind} (known : e.kind? bindings declared = some k)
    (provides : bindings.Provides declared e.callees) (limit : Nat) (host : σ) :
    (∀ v, (e.value bindings limit host).1 = .ok v → v.kind = k) ∧
      ∀ error, (e.value bindings limit host).1 = .error error → error.BeyondKinds limit := by
  have yields : Meets limit (·.kind = k) ((e.guardedEval bindings limit limit).run host).1 :=
    yields_of_kind? limit known provides host
  rw [value_eq_guardedEval]
  constructor
  · intro v succeeded
    rwa [succeeded] at yields
  · intro error failed
    rwa [failed] at yields

/-- The chain `1/x<3=F("a")`. -/
def quotientComparison : Expr :=
  .binary (.comparison .equal)
    (.binary (.comparison .less)
      (.binary (.arithmetic .divide) (.number "1" 1) (.reference "x" 3) 2) (.number "3" 5) 4)
    (.call "F" [.string "a" 9] 7) 6

/-- The function `F` and the number `x`, which is zero. -/
def functionAndZero : Bindings (List String) :=
  (Bindings.empty.setFunction "F" recorder).setVariable "x" (.number 0)

/-- The value of the chain is first a number and then twice a boolean. -/
theorem quotientComparison_kind :
    quotientComparison.kind? functionAndZero (fun _ => some .boolean) = some .boolean ∧
      functionAndZero.Provides (fun _ => some .boolean) quotientComparison.callees ∧
      (quotientComparison.value functionAndZero 4 []).1 = .error (.divisionByZero 2) ∧
      Error.BeyondKinds 4 (.divisionByZero 2) := by
  have known : quotientComparison.kind? functionAndZero (fun _ => some .boolean) =
      some .boolean := by decide +kernel
  have provides :
      functionAndZero.Provides (fun _ => some .boolean) quotientComparison.callees := by
    intro name mem k hk
    obtain rfl := List.mem_singleton.mp mem
    obtain rfl := Option.some.inj hk
    refine ⟨recorder, ?_, fun arguments host => .inl ⟨_, rfl, rfl⟩⟩
    simp [functionAndZero, Bindings.function?_setFunction]
  have failed : (quotientComparison.value functionAndZero 4 []).1 =
      .error (.divisionByZero 2) := by
    rw [value_eq_guardedEval]
    rfl
  exact ⟨known, provides, failed, (value_of_kind? known provides 4 []).2 _ failed⟩

end Expr

end SheetFormula
