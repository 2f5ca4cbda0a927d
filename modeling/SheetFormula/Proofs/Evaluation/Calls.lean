import SheetFormula.Proofs.Evaluation.DepthGuard

/-!
# The calls that evaluation makes

`Bindings.recording` lets every host function write down the calls of it, which changes nothing
else. What is written down when an expression has a value is every call of the tree, once and in
post-order: the arguments of a call from left to right before the call, and the left operand of an
operator before the right one. When there is none, it is the first calls of that list
(`Expr.value_recording`). No function passes over the evaluation of an argument, and none is called
after an error.

`Expr.performed` gives the calls themselves, along the tree. A call is among them if all that
stands before it in the order of evaluation has succeeded, its arguments included (`callsThen`).

`Performs` relates a computation with recording functions to the one without: it comes to the same,
it adds its calls to the record, and they are the first of the calls at certain nodes, or all of
them if it succeeds. For two computations one after the other the nodes and the calls are put
together (`Performs.bind`), and guarded evaluation of an expression performs its calls in
post-order (`Expr.performs`).

That an argument has a value of its own for each call is said with `Expr.Reaches`: evaluation comes
to each call that is made, and there its arguments have the values that the function gets
(`Expr.reaches_of_mem_performed`).
-/

namespace SheetFormula

variable {σ α β : Type}

/-! ## Calls and their record -/

/-- A call in a tree. -/
structure CallNode where
  name : String
  arguments : List Expr
  position : Nat

/-- The call as an expression. -/
def CallNode.expr (node : CallNode) : Expr :=
  .call node.name node.arguments node.position

mutual

/-- The calls in a tree in post-order. -/
def Expr.calls : Expr → List CallNode
  | .number .. | .string .. | .reference .. => []
  | .unary _ operand _ => operand.calls
  | .binary _ left right _ => left.calls ++ right.calls
  | .call name arguments position => Expr.callsAll arguments ++ [⟨name, arguments, position⟩]

/-- The calls in the trees of a list, one tree after another. -/
def Expr.callsAll : List Expr → List CallNode
  | [] => []
  | e :: others => e.calls ++ Expr.callsAll others

end

/-- What a host function sees of a call of it, and the name it is called by. -/
structure HostInvocation where
  name : String
  arguments : List Value

/-- The function `f` under a name, which also writes down every call of it. -/
def HostFunction.recording (name : String) (f : HostFunction σ) :
    HostFunction (σ × List HostInvocation) :=
  fun arguments state =>
    let (outcome, after) := f arguments state.1
    (outcome, (after, state.2 ++ [⟨name, arguments⟩]))

namespace Bindings

/-- The same bindings with functions that write down the calls of them. -/
def recording (bindings : Bindings σ) : Bindings (σ × List HostInvocation) where
  values := bindings.values
  functions := bindings.functions.map HostFunction.recording

@[simp]
theorem value?_recording (bindings : Bindings σ) (name : String) :
    bindings.recording.value? name = bindings.value? name :=
  rfl

@[simp]
theorem function?_recording (bindings : Bindings σ) (name : String) :
    bindings.recording.function? name =
      (bindings.function? name).map (HostFunction.recording name) :=
  Std.TreeMap.getElem?_map

end Bindings

/-- A call in a tree that has been made, with the values of its arguments. -/
structure PerformedCall where
  node : CallNode
  arguments : List Value

/-- What the host function saw of the call. -/
def PerformedCall.invocation (c : PerformedCall) : HostInvocation :=
  ⟨c.node.name, c.arguments⟩

/-- The calls before an action and, if the action succeeds, those after it. -/
def callsThen (calls : σ → List PerformedCall) (action : HostAction σ α)
    (next : α → σ → List PerformedCall) (host : σ) : List PerformedCall :=
  calls host ++
    match action.run host with
    | (.ok a, after) => next a after
    | (.error _, _) => []

namespace Expr

variable (bindings : Bindings σ) (limit : Nat)

mutual

/-- The calls that are made when `e` is evaluated with `room` levels left of the limit, in the order
in which they are made. -/
def performed : (room : Nat) → Expr → σ → List PerformedCall
  | 0, _, _ => []
  | _ + 1, .number .., _ | _ + 1, .string .., _ | _ + 1, .reference .., _ => []
  | room + 1, .unary _ operand _, host => performed room operand host
  | room + 1, .binary _ left right _, host =>
    callsThen (performed (room + 1 - left.leftStep) left)
      (left.guardedEval bindings limit (room + 1 - left.leftStep)) (fun _ => performed room right)
      host
  | room + 1, .call name arguments position, host =>
    match bindings.function? name with
    | some _ =>
      callsThen (performedAll room arguments) (guardedEvalAll bindings limit room arguments)
        (fun values _ => [⟨⟨name, arguments, position⟩, values⟩]) host
    | none => []

/-- The calls that are made when the expressions of a list are evaluated in order. -/
def performedAll : (room : Nat) → List Expr → σ → List PerformedCall
  | _, [], _ => []
  | room, e :: others, host =>
    callsThen (performed room e) (e.guardedEval bindings limit room)
      (fun _ => performedAll room others) host

end

end Expr

theorem mem_callsThen {calls : σ → List PerformedCall} {action : HostAction σ α}
    {next : α → σ → List PerformedCall} {host : σ} {c : PerformedCall} :
    c ∈ callsThen calls action next host ↔ c ∈ calls host ∨
      ∃ a after, action.run host = (.ok a, after) ∧ c ∈ next a after := by
  rw [callsThen, List.mem_append]
  constructor
  · rintro (mem | mem)
    · exact .inl mem
    · split at mem
      · next a after h => exact .inr ⟨a, after, h, mem⟩
      · exact absurd mem List.not_mem_nil
  · rintro (mem | ⟨a, after, h, mem⟩)
    · exact .inl mem
    · rw [h]
      exact .inr mem

/-! ## One computation -/

/-- With recording functions `action` does what `plain` does and writes down `calls`. They are the
first of the calls at `nodes`, and all of those if the computation succeeds. -/
structure Performs (calls : σ → List PerformedCall) (nodes : List CallNode)
    (action : HostAction (σ × List HostInvocation) α) (plain : HostAction σ α) : Prop where
  recorded : ∀ host log, action.run (host, log) = ((plain.run host).1,
    ((plain.run host).2, log ++ (calls host).map PerformedCall.invocation))
  complete : ∀ host a after, plain.run host = (.ok a, after) →
    (calls host).map PerformedCall.node = nodes
  initial : ∀ host, (calls host).map PerformedCall.node <+: nodes

namespace Performs

variable {calls : σ → List PerformedCall} {nodes later : List CallNode}

/-- A computation that calls nothing. -/
theorem of_run_eq {action : HostAction (σ × List HostInvocation) α} {plain : HostAction σ α}
    (h : ∀ host log, action.run (host, log) = ((plain.run host).1, ((plain.run host).2, log))) :
    Performs (fun _ => []) [] action plain where
  recorded host log := by simp [h host log]
  complete _ _ _ _ := rfl
  initial _ := List.nil_prefix

theorem ofExcept (x : Except Error α) : Performs (fun _ : σ => []) [] (MonadExcept.ofExcept x)
    (MonadExcept.ofExcept x) := by
  cases x <;> exact of_run_eq fun _ _ => rfl

/-- A failure before any of the calls at `nodes`. -/
theorem throw (nodes : List CallNode) (e : Error) : Performs (fun _ : σ => []) nodes
    (α := α) (MonadExcept.throw e) (MonadExcept.throw e) where
  recorded host log := by
    rw [List.map_nil, List.append_nil]
    rfl
  complete host a after h := by cases h
  initial _ := List.nil_prefix

/-- The calls of one computation and, if it succeeds, of a second one after it. -/
theorem bind {next : α → σ → List PerformedCall} {x : HostAction (σ × List HostInvocation) α}
    {p : HostAction σ α} {f : α → HostAction (σ × List HostInvocation) β} {g : α → HostAction σ β}
    (first : Performs calls nodes x p) (rest : ∀ a, Performs (next a) later (f a) (g a)) :
    Performs (callsThen calls p next) (nodes ++ later) (x >>= f) (p >>= g) where
  recorded host log := by
    rw [run_bind, run_bind, first.recorded host log, callsThen]
    generalize p.run host = outcome
    obtain ⟨_ | a, between⟩ := outcome
    · simp
    · simp [(rest a).recorded]
  complete host b after h := by
    obtain ⟨a, between, hp, hg⟩ := run_bind_eq_ok.mp h
    simp only [callsThen, hp, List.map_append, first.complete host a between hp,
      (rest a).complete between b after hg]
  initial host := by
    rw [callsThen]
    cases h : p.run host with
    | mk outcome between =>
      cases outcome with
      | error e => simpa using (first.initial host).trans (List.prefix_append nodes later)
      | ok a =>
        rw [List.map_append, first.complete host a between h]
        exact (List.prefix_append_right_inj nodes).mpr ((rest a).initial between)

/-- After a computation one that calls nothing adds no calls. -/
theorem bind_flat {x : HostAction (σ × List HostInvocation) α} {p : HostAction σ α}
    {f : α → HostAction (σ × List HostInvocation) β} {g : α → HostAction σ β}
    (first : Performs calls nodes x p) (rest : ∀ a, Performs (fun _ => []) [] (f a) (g a)) :
    Performs calls nodes (x >>= f) (p >>= g) := by
  have same : callsThen calls p (fun _ _ => []) = calls := by
    funext host
    rw [callsThen]
    split <;> exact List.append_nil _
  have both : Performs (callsThen calls p fun _ _ => []) (nodes ++ []) (x >>= f) (p >>= g) :=
    first.bind rest
  rwa [same, List.append_nil] at both

/-- The call of a recording function. -/
theorem call (node : CallNode) (f : HostFunction σ) (values : List Value) :
    Performs (fun _ => [⟨node, values⟩]) [node]
      (HostAction.call (f.recording node.name) values) (HostAction.call f values) where
  recorded _ _ := rfl
  complete _ _ _ _ := rfl
  initial _ := List.prefix_refl _

end Performs

/-! ## Expressions -/

namespace Expr

variable {bindings : Bindings σ} {limit : Nat}

theorem performed_zero (e : Expr) : e.performed bindings limit 0 = fun _ => [] :=
  funext fun _ => by rw [performed]

/-- A call without its function calls nothing. -/
theorem performed_call_of_none {name : String} (unknown : bindings.function? name = none)
    (room : Nat) (arguments : List Expr) (position : Nat) :
    (Expr.call name arguments position).performed bindings limit (room + 1) = fun _ => [] :=
  funext fun _ => by rw [performed, unknown]

/-- A call is made after the calls in its arguments, if they have values. -/
theorem performed_call_of_some {name : String} {f : HostFunction σ}
    (found : bindings.function? name = some f) (room : Nat) (arguments : List Expr)
    (position : Nat) : (Expr.call name arguments position).performed bindings limit (room + 1) =
      callsThen (performedAll bindings limit room arguments)
        (guardedEvalAll bindings limit room arguments)
        (fun values _ => [⟨⟨name, arguments, position⟩, values⟩]) :=
  funext fun _ => by rw [performed, found]

mutual

/-- An expression performs its calls in post-order. -/
theorem performs : ∀ (e : Expr) (room : Nat), Performs (e.performed bindings limit room) e.calls
    (e.guardedEval bindings.recording limit room) (e.guardedEval bindings limit room)
  | e, 0 => by
    rw [guardedEval, guardedEval, performed_zero]
    exact Performs.throw e.calls _
  | .number text position, room + 1 => by
    rw [guardedEval, guardedEval]
    exact Performs.ofExcept _
  | .string text position, room + 1 => by
    rw [guardedEval, guardedEval]
    exact Performs.of_run_eq fun _ _ => rfl
  | .reference name position, room + 1 => by
    rw [guardedEval, guardedEval, Bindings.value?_recording]
    cases bindings.value? name <;> exact Performs.of_run_eq fun _ _ => rfl
  | .unary sign operand position, room + 1 => by
    rw [guardedEval, guardedEval]
    exact (performs operand room).bind_flat fun value => Performs.ofExcept _
  | .binary op left right position, room + 1 => by
    rw [guardedEval, guardedEval]
    exact (performs left _).bind fun x =>
      (performs right room).bind_flat fun y => Performs.ofExcept _
  | .call name arguments position, room + 1 => by
    rw [guardedEval, guardedEval, Bindings.function?_recording]
    cases found : bindings.function? name with
    | none =>
      rw [performed_call_of_none found]
      exact Performs.throw _ _
    | some f =>
      rw [performed_call_of_some found]
      exact (performsAll arguments room).bind fun values =>
        Performs.call ⟨name, arguments, position⟩ f values

theorem performsAll : ∀ (es : List Expr) (room : Nat),
    Performs (performedAll bindings limit room es) (callsAll es)
      (guardedEvalAll bindings.recording limit room es) (guardedEvalAll bindings limit room es)
  | [], room => by
    rw [guardedEvalAll, guardedEvalAll]
    exact Performs.of_run_eq fun _ _ => rfl
  | e :: others, room => by
    rw [guardedEvalAll, guardedEvalAll]
    exact (performs e room).bind fun value =>
      (performsAll others room).bind_flat fun values => Performs.of_run_eq fun _ _ => rfl

end

/-! ## The values of arguments -/

/-- A list of expressions has one value for each of them. -/
theorem length_of_plainEvalAll {es : List Expr} {host after : σ} {vs : List Value}
    (h : (plainEvalAll bindings es).run host = (.ok vs, after)) : vs.length = es.length := by
  induction es generalizing host vs with
  | nil =>
    rw [plainEvalAll] at h
    cases h
    rfl
  | cons e others ih =>
    rw [plainEvalAll] at h
    obtain ⟨v, between, -, h⟩ := run_bind_eq_ok.mp h
    obtain ⟨vs, last, hvs, h⟩ := run_bind_eq_ok.mp h
    cases h
    rw [List.length_cons, List.length_cons, ih hvs]

mutual

/-- Evaluation comes to each call that is made, and its arguments have the values there that the
function gets. -/
theorem reaches_of_mem_performed : ∀ {e : Expr} {room : Nat} {host : σ} {c : PerformedCall},
    c ∈ e.performed bindings limit room host → ∃ n there after,
      e.Reaches bindings host n c.node.expr there ∧
        (plainEvalAll bindings c.node.arguments).run there = (.ok c.arguments, after)
  | _, 0, _, _, mem => by
    rw [performed] at mem
    exact absurd mem List.not_mem_nil
  | .number .., _ + 1, _, _, mem | .string .., _ + 1, _, _, mem
  | .reference .., _ + 1, _, _, mem => by
    rw [performed] at mem
    exact absurd mem List.not_mem_nil
  | .unary sign operand position, room + 1, host, c, mem => by
    rw [performed] at mem
    obtain ⟨n, there, after, inner, values⟩ := reaches_of_mem_performed mem
    exact ⟨n + 1, there, after, inner.operand sign position, values⟩
  | .binary op left right position, room + 1, host, c, mem => by
    rw [performed, mem_callsThen] at mem
    rcases mem with mem | ⟨x, between, before, mem⟩
    · obtain ⟨n, there, after, inner, values⟩ := reaches_of_mem_performed mem
      have below := inner.lt_level_add_leftStep rfl
      exact ⟨_, there, after, inner.left below op right position, values⟩
    · obtain ⟨n, there, after, inner, values⟩ := reaches_of_mem_performed mem
      exact ⟨n + 1, there, after, inner.right (plainEval_of_guardedEval before) op position, values⟩
  | .call name arguments position, room + 1, host, c, mem => by
    cases found : bindings.function? name with
    | none =>
      rw [performed_call_of_none found] at mem
      exact absurd mem List.not_mem_nil
    | some f =>
      rw [performed_call_of_some found, mem_callsThen] at mem
      rcases mem with mem | ⟨values, after, evaluated, mem⟩
      · obtain ⟨n, there, after, inner, values⟩ := reaches_of_mem_performedAll mem
        exact ⟨n + 1, there, after, inner.call found position, values⟩
      · obtain rfl := List.mem_singleton.mp mem
        exact ⟨1, host, after, .self _ host, plainEvalAll_of_guardedEvalAll evaluated⟩

theorem reaches_of_mem_performedAll : ∀ {es : List Expr} {room : Nat} {host : σ}
    {c : PerformedCall}, c ∈ performedAll bindings limit room es host → ∃ n there after,
      ReachesAll bindings es host n c.node.expr there ∧
        (plainEvalAll bindings c.node.arguments).run there = (.ok c.arguments, after)
  | [], _, _, _, mem => by
    rw [performedAll] at mem
    exact absurd mem List.not_mem_nil
  | e :: others, room, host, c, mem => by
    rw [performedAll, mem_callsThen] at mem
    rcases mem with mem | ⟨v, between, first, mem⟩
    · obtain ⟨n, there, after, inner, values⟩ := reaches_of_mem_performed mem
      exact ⟨n, there, after, inner.head others, values⟩
    · obtain ⟨n, there, after, inner, values⟩ := reaches_of_mem_performedAll mem
      exact ⟨n, there, after, inner.cons (plainEval_of_guardedEval first), values⟩

end

/-- Recording changes nothing but the record. If the expression has a value, the calls recorded are
those of the tree in post-order, each once; if it has none, they are the first of these. Each was
made with one value for each argument, the one that the argument evaluated to when evaluation came
to the call. -/
theorem value_recording (bindings : Bindings σ) (limit : Nat) (e : Expr) (host : σ) :
    e.value bindings.recording limit (host, []) =
        ((e.value bindings limit host).1, ((e.value bindings limit host).2,
          (e.performed bindings limit limit host).map PerformedCall.invocation)) ∧
      (∀ v, (e.value bindings limit host).1 = .ok v →
        (e.performed bindings limit limit host).map PerformedCall.node = e.calls) ∧
      (∀ error, (e.value bindings limit host).1 = .error error →
        (e.performed bindings limit limit host).map PerformedCall.node <+: e.calls) ∧
      ∀ c ∈ e.performed bindings limit limit host,
        c.arguments.length = c.node.arguments.length ∧ ∃ n there after,
          e.Reaches bindings host n c.node.expr there ∧
            (plainEvalAll bindings c.node.arguments).run there = (.ok c.arguments, after) := by
  have h : Performs (e.performed bindings limit limit) e.calls
      (e.guardedEval bindings.recording limit limit) (e.guardedEval bindings limit limit) :=
    e.performs limit
  rw [value_eq_guardedEval, value_eq_guardedEval]
  refine ⟨?_, fun v succeeded => ?_, fun _ _ => h.initial host, fun c mem => ?_⟩
  · simpa using h.recorded host []
  · exact h.complete host v _ (Prod.ext succeeded rfl)
  · obtain ⟨n, there, after, reached, values⟩ := reaches_of_mem_performed mem
    exact ⟨length_of_plainEvalAll values, n, there, after, reached, values⟩

/-- The standard functions together with `recorder`. -/
def standardAndRecorder : Bindings (List String) :=
  Bindings.addStandard (Bindings.empty.setFunction "F" recorder)

/-- The call `And(F("a")="b";F("c"))`, or the same with further arguments. -/
def conjunction (further : List Expr) : Expr :=
  .call "And" ([.binary (.comparison .equal) (.call "F" [.string "a" 7] 5) (.string "b" 12) 11,
    .call "F" [.string "c" 18] 16] ++ further) 1

/-- The conjunction is false because of its first argument, and yet the second is evaluated. With a
further argument `-"d"`, which fails, the conjunction is not called. -/
theorem conjunction_recording :
    (((conjunction []).value standardAndRecorder.recording 4 ([], [])).2.2 =
        [⟨"F", [.string "a"]⟩, ⟨"F", [.string "c"]⟩, ⟨"And", [.boolean false, .boolean true]⟩] ∧
      ((conjunction []).performed standardAndRecorder 4 4 []).map PerformedCall.node =
        (conjunction []).calls) ∧
    ((conjunction [.unary .minus (.string "d" 24) 23]).value standardAndRecorder.recording 4
        ([], [])).2.2 = [⟨"F", [.string "a"]⟩, ⟨"F", [.string "c"]⟩] ∧
      ((conjunction [.unary .minus (.string "d" 24) 23]).performed standardAndRecorder 4 4
        []).map PerformedCall.node <+: (conjunction [.unary .minus (.string "d" 24) 23]).calls := by
  obtain ⟨recorded, complete, -, -⟩ := value_recording standardAndRecorder 4 (conjunction []) []
  obtain ⟨recorded', -, initial, -⟩ :=
    value_recording standardAndRecorder 4 (conjunction [.unary .minus (.string "d" 24) 23]) []
  have value : ((conjunction []).value standardAndRecorder 4 []).1 = .ok (.boolean false) := by
    rw [value_eq_guardedEval]
    rfl
  have failed : ((conjunction [.unary .minus (.string "d" 24) 23]).value standardAndRecorder 4
      []).1 = .error (.typeMismatch "-" "number" .string 23) := by
    rw [value_eq_guardedEval]
    rfl
  refine ⟨⟨?_, complete _ value⟩, ?_, initial _ failed⟩
  · rw [recorded]
    rfl
  · rw [recorded']
    rfl

end Expr

end SheetFormula
