import SheetFormula.Proofs.Evaluation.Guarded
import SheetFormula.Proofs.Evaluation.NestingLimit

/-!
# The limit is exact

A tree is evaluated as without a limit if it has no more levels than the limit, and otherwise it
has no value (`Expr.value_limit_exact`). The error is then that of the limit, at the place of a
node that evaluation reaches one level beyond it, or it is an error that evaluation meets before.

`Expr.Reaches` says which nodes evaluation reaches, at which level, and in which state of the host
functions. It has a case for each place that a node can have in another one, and each says that
what stands before this place has a value. So it speaks of the order of evaluation, and not of a
limit.

`StopsAt` compares two computations, one of which does what the other does or stops because of the
limit at one of certain places. The places add up over two computations one after the other
(`StopsAt.bind`). With the nodes that are one level beyond the room as places, this holds of
guarded evaluation and plain evaluation (`Expr.stopsAt_guardedEval`), by induction on the tree. In
particular, what succeeds under a limit does so without it (`Expr.plainEval_of_guardedEval`).

That a tree with more levels has no value follows from the levels that a successful evaluation
reaches, which are all of them. A chain of operators has one level more than its operands however
long it is (`Expr.levels_eq_of_chain`), as laying it out keeps the levels (`Expr.levels_unfold`).
-/

namespace SheetFormula

variable {σ α β : Type}

/-- Evaluating the expression, with the host functions in the first state, comes to evaluate a node
at a level, with the host functions in the second state: the expression itself at level one, and
the operand of a sign, the operands of a chain and the arguments of a call one level further in, if
all that is evaluated before them succeeds. -/
inductive Expr.Reaches (bindings : Bindings σ) : Expr → σ → Nat → Expr → σ → Prop where
  | self (e : Expr) (host : σ) : Reaches bindings e host 1 e host
  | operand {operand d : Expr} {host there : σ} {n : Nat}
      (inner : Reaches bindings operand host n d there) (sign : Sign) (position : Nat) :
    Reaches bindings (.unary sign operand position) host (n + 1) d there
  /-- An operation as the left operand of another is of one chain with it, so it is not evaluated by
  itself. -/
  | left {left d : Expr} {host there : σ} {n : Nat} (inner : Reaches bindings left host n d there)
      (below : 1 < n + left.leftStep) (op : Operator) (right : Expr) (position : Nat) :
    Reaches bindings (.binary op left right position) host (n + left.leftStep) d there
  | right {left right d : Expr} {host between there : σ} {x : Value} {n : Nat}
      (before : (left.plainEval bindings).run host = (.ok x, between))
      (inner : Reaches bindings right between n d there) (op : Operator) (position : Nat) :
    Reaches bindings (.binary op left right position) host (n + 1) d there
  | argument {name : String} {f : HostFunction σ} {earlier : List Expr} {argument d : Expr}
      {host between there : σ} {xs : List Value} {n : Nat}
      (found : bindings.function? name = some f)
      (before : (Expr.plainEvalAll bindings earlier).run host = (.ok xs, between))
      (inner : Reaches bindings argument between n d there) (later : List Expr) (position : Nat) :
    Reaches bindings (.call name (earlier ++ argument :: later) position) host (n + 1) d there

namespace Expr

variable {bindings : Bindings σ} {host between there : σ} {n : Nat} {d : Expr}

/-- Evaluating the expressions of a list in order comes to evaluate a node of one of them. -/
def ReachesAll (bindings : Bindings σ) (es : List Expr) (host : σ) (n : Nat) (d : Expr)
    (there : σ) : Prop :=
  ∃ earlier e later, es = earlier ++ e :: later ∧ ∃ xs between,
    (plainEvalAll bindings earlier).run host = (.ok xs, between) ∧
      e.Reaches bindings between n d there

theorem Reaches.level_pos {e : Expr} (h : e.Reaches bindings host n d there) : 0 < n := by
  cases h with
  | left inner below op right position => omega
  | _ => exact Nat.succ_pos _

/-- Only an operation is of one chain with the expression that reaches it. -/
theorem Reaches.lt_level_add_leftStep {e : Expr} (h : e.Reaches bindings host n d there)
    (operand : d.leftStep = 1) : 1 < n + e.leftStep := by
  cases h with
  | self => omega
  | left inner below op right position => omega
  | operand inner sign position =>
    have := inner.level_pos
    omega
  | right before inner op position =>
    have := inner.level_pos
    omega
  | argument found before inner later position =>
    have := inner.level_pos
    omega

/-- The first expression of a list is evaluated before all others. -/
theorem Reaches.head {e : Expr} (h : e.Reaches bindings host n d there) (others : List Expr) :
    ReachesAll bindings (e :: others) host n d there :=
  ⟨[], e, others, rfl, [], host, by rw [plainEvalAll]; rfl, h⟩

/-- The others are evaluated after the first expression of a list. -/
theorem ReachesAll.cons {e : Expr} {others : List Expr} {v : Value}
    (first : (e.plainEval bindings).run host = (.ok v, between))
    (h : ReachesAll bindings others between n d there) :
    ReachesAll bindings (e :: others) host n d there := by
  obtain ⟨earlier, e', later, rfl, vs, last, before, reached⟩ := h
  refine ⟨e :: earlier, e', later, rfl, v :: vs, last, ?_, reached⟩
  simp only [plainEvalAll, run_bind, first, before]
  rfl

/-- What is reached in the arguments of a call is reached in the call. -/
theorem ReachesAll.call {name : String} {f : HostFunction σ} {arguments : List Expr}
    (found : bindings.function? name = some f)
    (h : ReachesAll bindings arguments host n d there) (position : Nat) :
    (Expr.call name arguments position).Reaches bindings host (n + 1) d there := by
  obtain ⟨earlier, e, later, rfl, xs, between, before, reached⟩ := h
  exact reached.argument found before later position

end Expr

/-! ## Where a computation can stop -/

/-- `action` does what `plain` does, or it fails because of the limit at one of the places that
`stops` gives for the state it starts in. -/
def StopsAt (limit : Nat) (stops : σ → Nat → Prop) (action plain : HostAction σ α) : Prop :=
  ∀ host, action.run host = plain.run host ∨
    ∃ position after, stops host position ∧
      action.run host = (.error (.nestingTooDeep limit position), after)

namespace StopsAt

variable {limit : Nat} {stops next : σ → Nat → Prop}

theorem refl (action : HostAction σ α) : StopsAt limit stops action action :=
  fun _ => .inl rfl

theorem mono {action plain : HostAction σ α} (h : StopsAt limit stops action plain)
    (le : ∀ host position, stops host position → next host position) :
    StopsAt limit next action plain := by
  intro host
  rcases h host with same | ⟨position, after, stopped, failed⟩
  · exact .inl same
  · exact .inr ⟨position, after, le host position stopped, failed⟩

/-- The second of two computations stops where it would from the state that the first leaves. -/
theorem bind {x p : HostAction σ α} {f g : α → HostAction σ β} (first : StopsAt limit stops x p)
    (rest : ∀ a, StopsAt limit next (f a) (g a)) :
    StopsAt limit (fun host position => stops host position ∨
      ∃ a between, p.run host = (.ok a, between) ∧ next between position) (x >>= f) (p >>= g) := by
  intro host
  rw [run_bind, run_bind]
  rcases first host with same | ⟨position, after, stopped, failed⟩
  · rw [same]
    cases h : p.run host with
    | mk outcome between =>
      cases outcome with
      | error e => exact .inl rfl
      | ok a =>
        rcases rest a between with same | ⟨position, after, stopped, failed⟩
        · exact .inl same
        · exact .inr ⟨position, after, .inr ⟨a, between, h, stopped⟩, failed⟩
  · rw [failed]
    exact .inr ⟨position, after, .inl stopped, rfl⟩

/-- After a computation that may stop, one that cannot stops nowhere else. -/
theorem bind_same {x p : HostAction σ α} (first : StopsAt limit stops x p)
    (f : α → HostAction σ β) : StopsAt limit stops (x >>= f) (p >>= f) := by
  have nowhere (a : α) : StopsAt limit (fun _ _ => False) (f a) (f a) := refl (f a)
  refine (first.bind nowhere).mono ?_
  rintro host position (stopped | ⟨a, between, -, impossible⟩)
  · exact stopped
  · exact impossible.elim

theorem plain_of_ok {action plain : HostAction σ α} (h : StopsAt limit stops action plain)
    {host after : σ} {a : α} (succeeded : action.run host = (.ok a, after)) :
    plain.run host = (.ok a, after) := by
  rcases h host with same | ⟨position, last, -, failed⟩
  · rw [← same, succeeded]
  · rw [failed] at succeeded
    cases succeeded

end StopsAt

/-! ## Expressions -/

namespace Expr

variable {bindings : Bindings σ} {limit : Nat}

mutual

/-- Guarded evaluation does what plain evaluation does, or it stops at a node that is reached one
level beyond the room. -/
theorem stopsAt_guardedEval : ∀ (e : Expr) (room : Nat),
    StopsAt limit (fun host position => ∃ d there, e.Reaches bindings host (room + 1) d there ∧
      position = d.position) (e.guardedEval bindings limit room) (e.plainEval bindings)
  | e, 0 => by
    intro host
    rw [guardedEval]
    exact .inr ⟨e.position, host, ⟨e, host, .self e host, rfl⟩, rfl⟩
  | .number .., room + 1 | .string .., room + 1 | .reference .., room + 1 => by
    rw [guardedEval, plainEval]
    exact StopsAt.refl _
  | .unary sign operand position, room + 1 => by
    rw [guardedEval, plainEval]
    refine ((stopsAt_guardedEval operand room).bind_same _).mono ?_
    rintro host place ⟨d, there, inner, rfl⟩
    exact ⟨d, there, inner.operand sign position, rfl⟩
  | .binary op left right position, room + 1 => by
    rw [guardedEval, plainEval]
    have step := left.leftStep_le_one
    refine ((stopsAt_guardedEval left _).bind fun x =>
      (stopsAt_guardedEval right room).bind_same _).mono ?_
    rintro host place (⟨d, there, inner, rfl⟩ | ⟨x, between, before, d, there, inner, rfl⟩)
    · have below := inner.left (by omega) op right position
      have level : room + 1 - left.leftStep + 1 + left.leftStep = room + 1 + 1 := by omega
      exact ⟨d, there, level ▸ below, rfl⟩
    · exact ⟨d, there, inner.right before op position, rfl⟩
  | .call name arguments position, room + 1 => by
    rw [guardedEval, plainEval]
    cases found : bindings.function? name with
    | none => exact StopsAt.refl _
    | some f =>
      refine ((stopsAt_guardedEvalAll arguments room).bind_same _).mono ?_
      rintro host place ⟨d, there, inner, rfl⟩
      exact ⟨d, there, inner.call found position, rfl⟩

theorem stopsAt_guardedEvalAll : ∀ (es : List Expr) (room : Nat),
    StopsAt limit (fun host position => ∃ d there, ReachesAll bindings es host (room + 1) d there ∧
      position = d.position) (guardedEvalAll bindings limit room es) (plainEvalAll bindings es)
  | [], room => by
    rw [guardedEvalAll, plainEvalAll]
    exact StopsAt.refl _
  | e :: others, room => by
    rw [guardedEvalAll, plainEvalAll]
    refine ((stopsAt_guardedEval e room).bind fun value =>
      (stopsAt_guardedEvalAll others room).bind_same _).mono ?_
    rintro host place (⟨d, there, inner, rfl⟩ | ⟨v, between, first, d, there, inner, rfl⟩)
    · exact ⟨d, there, inner.head others, rfl⟩
    · exact ⟨d, there, inner.cons first, rfl⟩

end

/-- What succeeds under the limit does so without it, with the same value. -/
theorem plainEval_of_guardedEval {room : Nat} {e : Expr} {host after : σ} {v : Value}
    (h : (e.guardedEval bindings limit room).run host = (.ok v, after)) :
    (e.plainEval bindings).run host = (.ok v, after) :=
  (stopsAt_guardedEval e room).plain_of_ok h

theorem plainEvalAll_of_guardedEvalAll {room : Nat} {es : List Expr} {host after : σ}
    {vs : List Value} (h : (guardedEvalAll bindings limit room es).run host = (.ok vs, after)) :
    (plainEvalAll bindings es).run host = (.ok vs, after) :=
  (stopsAt_guardedEvalAll es room).plain_of_ok h

/-! ## Levels of chains -/

/-- The links of a chain with its left part count as one level above the deepest of them. -/
theorem levels_unfold (e : Expr) (links : List Link) :
    max (e.levels + e.leftStep) (levelsAll (links.map Link.right) + 1) =
      max (Chain.unfold e links).head.levels
        (levelsAll ((Chain.unfold e links).links.map Link.right)) + 1 := by
  fun_induction Chain.unfold e links with
  | case1 op left right position links ih =>
    have step : (Expr.binary op left right position).leftStep = 0 := rfl
    simp only [List.map_cons, levelsAll] at ih
    rw [← ih, step, levels]
    omega
  | case2 e links notBinary =>
    have step : e.leftStep = 1 := by
      cases e with
      | binary op left right position => exact (notBinary op left right position rfl).elim
      | _ => rfl
    rw [step]
    dsimp only
    omega

/-- A chain has one level more than the deepest of its leftmost operand and its right operands. -/
theorem levels_eq_of_chain {e : Expr} {chain : Chain} (laid : Chain.ofExpr e = chain)
    (operators : chain.links ≠ []) :
    e.levels = max chain.head.levels (levelsAll (chain.links.map Link.right)) + 1 := by
  subst laid
  cases e with
  | binary op left right position =>
    have step : (Expr.binary op left right position).leftStep = 0 := rfl
    rw [Chain.ofExpr, ← levels_unfold, step, levels, List.map_nil, levelsAll]
    omega
  | _ => exact absurd rfl operators

/-! ## Expressions and their levels -/

/-- A tree with no more levels than the limit has the value that evaluation without a limit gives it,
and never fails because of the limit. One with more has no value: evaluation fails because of the
limit, at a node reached one level beyond it, or it ends with the error that it ends with without a
limit. All operators of a chain together count as one level. -/
theorem value_limit_exact (never : bindings.NeverTooDeep) (e : Expr) (host : σ) (limit : Nat) :
    (e.levels ≤ limit → e.value bindings limit host = e.plainValue bindings host ∧
        ∀ l position, (e.value bindings limit host).1 ≠ .error (.nestingTooDeep l position)) ∧
      (limit < e.levels → ∃ error, (e.value bindings limit host).1 = .error error ∧
        ((∃ d there, e.Reaches bindings host (limit + 1) d there ∧
            error = .nestingTooDeep limit d.position) ∨
          e.value bindings limit host = e.plainValue bindings host)) ∧
      ∀ chain, Chain.ofExpr e = chain → chain.links ≠ [] →
        e.levels = max chain.head.levels (levelsAll (chain.links.map Link.right)) + 1 := by
  refine ⟨fun within => ?_, fun exceeded => ?_, fun chain => levels_eq_of_chain⟩
  · have same : e.value bindings limit host = e.plainValue bindings host :=
      value_of_reach_le (Nat.le_trans (e.reach_le_levels bindings host) within)
    exact ⟨same, same ▸ plainValue_ne_nestingTooDeep never e host⟩
  · cases outcome : e.value bindings limit host with
    | mk result after =>
      cases result with
      | ok v =>
        -- An evaluation that succeeds reaches all levels, so the limit would have ended it.
        have succeeded := outcome
        rw [value_eq_guardedEval] at succeeded
        have all := reach_eq_levels (plainEval_of_guardedEval succeeded)
        obtain ⟨position, last, failed⟩ := value_of_lt_reach (all ▸ exceeded)
        rw [failed] at outcome
        cases outcome
      | error error =>
        refine ⟨error, rfl, ?_⟩
        have stops : StopsAt limit _ (e.guardedEval bindings limit limit) (e.plainEval bindings) :=
          stopsAt_guardedEval e limit
        rw [value_eq_guardedEval] at outcome
        rcases stops host with same | ⟨position, last, ⟨d, there, reached, rfl⟩, failed⟩
        · exact .inr (outcome.symm.trans same)
        · rw [failed] at outcome
          cases outcome
          exact .inl ⟨d, there, reached, rfl⟩

/-- The comparison `"a"=F(F("b"))`. -/
def equalToNestedCall : Expr :=
  .binary (.comparison .equal) (.string "a" 1)
    (.call "F" [.call "F" [.string "b" 9] 7] 5) 4

/-- The inner argument is on the fourth level: it has a value under the limit four and is one level
too deep under the limit three, before any call is made. -/
theorem equalToNestedCall_value :
    (Bindings.empty.setFunction "F" recorder).NeverTooDeep ∧ equalToNestedCall.levels = 4 ∧
      equalToNestedCall.value (Bindings.empty.setFunction "F" recorder) 4 [] =
        (.ok (.boolean false), ["b", "true"]) ∧
      ∃ d there,
        equalToNestedCall.Reaches (Bindings.empty.setFunction "F" recorder) [] 4 d there ∧
        (equalToNestedCall.value (Bindings.empty.setFunction "F" recorder) 3 []).1 =
          .error (.nestingTooDeep 3 d.position) := by
  have never : (Bindings.empty.setFunction "F" recorder).NeverTooDeep := by
    intro name f found arguments host limit position
    rw [Bindings.function?_setFunction, Bindings.function?_empty] at found
    split at found <;> cases found
    simp [recorder]
  have plain : equalToNestedCall.plainValue (Bindings.empty.setFunction "F" recorder) [] =
      (.ok (.boolean false), ["b", "true"]) := rfl
  have four : equalToNestedCall.levels = 4 := by decide
  have within := (value_limit_exact never equalToNestedCall [] 4).1 (by omega)
  obtain ⟨error, failed, ⟨d, there, reached, rfl⟩ | same⟩ :=
    (value_limit_exact never equalToNestedCall [] 3).2.1 (by omega)
  · exact ⟨never, four, within.1.trans plain, d, there, reached, failed⟩
  · rw [same, plain] at failed
    cases failed

end Expr

end SheetFormula
