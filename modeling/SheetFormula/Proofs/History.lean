import SheetFormula.Proofs.Json.Variables

/-!
# What a session remembers

A session keeps what the latest request said about a name and nothing else: which value a variable
has, and which function stands behind a name, follows from the requests so far, read backwards up
to the first that decides it (`Session.after_requests`). This holds of every sequence of requests,
those that fail among them.

`Request.writtenValue?` and `Request.writtenFunction?` say what a single request decides about one
name. A request that binds nothing decides nothing, one that replaces or clears the variables
decides about every name, and a JSON text about those it gives, if it is not refused
(`Json.givenValue?`).

What a request decides is what there is after it, and otherwise there is what was there before
(`Session.perform_value?`, `Session.perform_function?`). From these two lemmas about one step those
about all requests follow by induction on their sequence, from its end (`Session.after_value?`,
`Session.after_function?`). The limit is that of the beginning (`Session.after_limit`).

Variables and functions do not touch each other: no request changes both, and the one that does not
change a map leaves all of it as it is (`Session.perform_values`, `Session.perform_functions`).

What is said of a text that is no JSON is an argument of the session, and a session keeps nothing
of it. All results are for any such `explain`.
-/

namespace SheetFormula

variable {σ : Type}

namespace Request

/-- What a request decides about a variable: that it has the value given, or that it has none. A
request that leaves the variable as it is decides nothing. -/
def writtenValue? (name : String) : Request σ → Option (Option Value)
  | .setVariable other value => if other = name then some (some value) else none
  | .replaceVariables entries => some (lastValue? entries name)
  | .clearVariables => some none
  | .loadJson text => (Json.givenValue? text name).map some
  | _ => none

/-- The function that a request gives to a name. -/
def writtenFunction? (name : String) : Request σ → Option (HostFunction σ)
  | .setFunction other f => if other = name then some f else none
  | .addStandardFunctions => (StandardFunction.ofName? name).map .ofPure
  | _ => none

/-- Whether a request sets or forgets variables, as loading does only if it succeeds. -/
def changesVariables (explain : String → String) : Request σ → Bool
  | .setVariable .. | .replaceVariables _ | .clearVariables => true
  | .loadJson text => (Json.readVariables explain text).isOk
  | _ => false

/-- Whether a request sets functions. -/
def changesFunctions : Request σ → Bool
  | .setFunction .. | .addStandardFunctions => true
  | _ => false

end Request

namespace Bindings

/-! ## The standard functions -/

/-- Of functions with different names each one stands behind its own, and other names keep
theirs. -/
theorem function?_foldl_setFunction (b : Bindings σ)
    (entries : List (String × (List Value → Except Error Value)))
    (nodup : (entries.map Prod.fst).Nodup) (name : String) :
    (entries.foldl (fun b entry => b.setFunction entry.1 (.ofPure entry.2)) b).function? name =
      ((entries.lookup name).map .ofPure).or (b.function? name) := by
  induction entries generalizing b with
  | nil => rfl
  | cons entry entries ih =>
    obtain ⟨other, f⟩ := entry
    obtain ⟨fresh, nodup⟩ := List.nodup_cons.mp nodup
    rw [List.foldl_cons, ih (b.setFunction other (.ofPure f)) nodup, function?_setFunction,
      List.lookup_cons]
    by_cases same : other = name
    · subst same
      have absent : entries.lookup other = none :=
        List.lookup_eq_none_iff.mpr fun entry mem => by
          have differs : other ≠ entry.1 := fun h =>
            fresh (List.mem_map.mpr ⟨entry, mem, h.symm⟩)
          simpa using differs
      simp [absent]
    · have differs : (name == other) = false := by simpa using Ne.symm same
      simp [differs, same]

/-- The standard functions stand behind their own names, and other names keep theirs. -/
theorem function?_addStandard (b : Bindings σ) (name : String) :
    b.addStandard.function? name =
      ((StandardFunction.ofName? name).map .ofPure).or (b.function? name) :=
  b.function?_foldl_setFunction StandardFunction.all (by decide) name

@[simp]
theorem values_addStandard (b : Bindings σ) : b.addStandard.values = b.values := by
  unfold addStandard
  induction StandardFunction.all generalizing b with
  | nil => rfl
  | cons entry entries ih => exact ih (b.setFunction entry.1 (.ofPure entry.2))

/-! ## The names of functions -/

theorem pairwise_functionNames (b : Bindings σ) : b.functionNames.Pairwise (· < ·) :=
  List.Pairwise.imp (R := fun name other => compare name other = .lt)
    (fun h => compareOfLessAndEq_eq_lt.mp h) Std.TreeMap.ordered_keys

theorem mem_functionNames (b : Bindings σ) (name : String) :
    name ∈ b.functionNames ↔ (b.function? name).isSome := by
  rw [functionNames, Std.TreeMap.mem_keys, function?, Std.TreeMap.isSome_getElem?_iff_mem]

end Bindings

namespace Session

/-! ## One request -/

theorem bindings_execute (s : Session σ) (formula : String) :
    (s.execute formula).2.bindings = s.bindings ∧ (s.execute formula).2.limit = s.limit := by
  unfold execute
  split <;> exact ⟨rfl, rfl⟩

theorem limit_modify (s : Session σ) (change : Bindings σ → Bindings σ) :
    (s.modify change).limit = s.limit :=
  rfl

variable (explain : String → String)

theorem perform_limit (s : Session σ) (r : Request σ) :
    (s.perform explain r).2.limit = s.limit := by
  cases r with
  | execute formula => exact (s.bindings_execute formula).2
  | addStandardFunctions => exact s.limit_modify _
  | loadJson | variableValue | call | parse =>
    unfold perform
    dsimp only
    split <;> rfl
  | _ => rfl

theorem perform_values (s : Session σ) {r : Request σ}
    (keeps : r.changesVariables explain = false) :
    (s.perform explain r).2.bindings.values = s.bindings.values := by
  cases r with
  | execute formula => exact congrArg Bindings.values (s.bindings_execute formula).1
  | setVariable | replaceVariables | clearVariables => cases keeps
  | loadJson text =>
    unfold perform
    dsimp only
    split
    · next h =>
      rw [Request.changesVariables, h] at keeps
      cases keeps
    · rfl
  | variableValue | call | parse =>
    unfold perform
    dsimp only
    split <;> rfl
  | addStandardFunctions => exact s.bindings.values_addStandard
  | _ => rfl

theorem perform_functions (s : Session σ) {r : Request σ} (keeps : r.changesFunctions = false) :
    (s.perform explain r).2.bindings.functions = s.bindings.functions := by
  cases r with
  | execute formula => exact congrArg Bindings.functions (s.bindings_execute formula).1
  | setFunction | addStandardFunctions => cases keeps
  | replaceVariables entries => exact s.bindings.clearVariables.functions_setVariables entries
  | loadJson text =>
    unfold perform
    dsimp only
    split
    · exact s.bindings.functions_setVariables _
    · rfl
  | variableValue | call | parse =>
    unfold perform
    dsimp only
    split <;> rfl
  | _ => rfl

/-- After a request a variable has what the request decided, or else what it had. -/
theorem perform_value? (s : Session σ) (r : Request σ) (name : String) :
    (s.perform explain r).2.bindings.value? name =
      (r.writtenValue? name).getD (s.bindings.value? name) := by
  cases r with
  | setVariable other value =>
    rw [Request.writtenValue?]
    refine (s.bindings.value?_setVariable other name value).trans ?_
    split <;> rfl
  | replaceVariables entries => exact s.bindings.value?_replaceVariables entries name
  | clearVariables => exact s.bindings.value?_clearVariables name
  | loadJson text =>
    rw [Request.writtenValue?]
    unfold perform
    dsimp only
    split
    · next entries h =>
      rw [Json.givenValue?_of_readVariables_eq_ok h]
      refine (s.bindings.value?_setVariables_eq entries name).trans ?_
      cases lastValue? entries name <;> rfl
    · next e h =>
      rw [Json.givenValue?_of_readVariables_eq_error h]
      rfl
  | _ => exact congrArg (·[name]?) (s.perform_values explain rfl)

/-- After a request a name stands for the function that the request gave it, or else for the one
before. -/
theorem perform_function? (s : Session σ) (r : Request σ) (name : String) :
    (s.perform explain r).2.bindings.function? name =
      (r.writtenFunction? name).or (s.bindings.function? name) := by
  cases r with
  | setFunction other f =>
    rw [Request.writtenFunction?]
    refine (s.bindings.function?_setFunction other name f).trans ?_
    split <;> rfl
  | addStandardFunctions => exact s.bindings.function?_addStandard name
  | _ => exact congrArg (·[name]?) (s.perform_functions explain rfl)

/-! ## All requests so far -/

/-- The session after requests. -/
def after (s : Session σ) (requests : List (Request σ)) : Session σ :=
  requests.foldl (fun s r => (s.perform explain r).2) s

theorem after_concat (s : Session σ) (requests : List (Request σ)) (r : Request σ) :
    s.after explain (requests ++ [r]) = ((s.after explain requests).perform explain r).2 := by
  simp [after]

theorem after_limit (s : Session σ) (requests : List (Request σ)) :
    (s.after explain requests).limit = s.limit := by
  induction requests using List.reverseRecOn with
  | nil => rfl
  | append_singleton requests r ih => rw [after_concat, perform_limit, ih]

/-- A variable has what the latest request that decides it says, or else what it had at first. -/
theorem after_value? (s : Session σ) (requests : List (Request σ)) (name : String) :
    (s.after explain requests).bindings.value? name =
      (requests.reverse.findSome? (·.writtenValue? name)).getD (s.bindings.value? name) := by
  induction requests using List.reverseRecOn with
  | nil => rfl
  | append_singleton requests r ih =>
    rw [after_concat, perform_value?, ih, List.reverse_concat, List.findSome?_cons]
    cases r.writtenValue? name <;> rfl

/-- A name stands for the function that the latest request gave it, or else for the one at first. -/
theorem after_function? (s : Session σ) (requests : List (Request σ)) (name : String) :
    (s.after explain requests).bindings.function? name =
      (requests.reverse.findSome? (·.writtenFunction? name)).or (s.bindings.function? name) := by
  induction requests using List.reverseRecOn with
  | nil => rfl
  | append_singleton requests r ih =>
    rw [after_concat, perform_function?, ih, List.reverse_concat, List.findSome?_cons]
    cases r.writtenFunction? name <;> rfl

/-- A session that began without bindings is two maps, one from names to values and one from names
to functions, in which the latest request that decides a name counts. No request changes both, and
none changes the limit; the names of the functions come in order, each once. -/
theorem after_requests (limit : Nat) (host : σ) (requests : List (Request σ)) :
    (∀ name, ((new limit host).after explain requests).bindings.value? name =
      (requests.reverse.findSome? (·.writtenValue? name)).join) ∧
    (∀ name, ((new limit host).after explain requests).bindings.function? name =
      requests.reverse.findSome? (·.writtenFunction? name)) ∧
    ((new limit host).after explain requests).limit = limit ∧
    (∀ r : Request σ,
      (r.changesVariables explain = false →
        (((new limit host).after explain requests).perform explain r).2.bindings.values =
          ((new limit host).after explain requests).bindings.values) ∧
      (r.changesFunctions = false →
        (((new limit host).after explain requests).perform explain r).2.bindings.functions =
          ((new limit host).after explain requests).bindings.functions) ∧
      (r.changesVariables explain = false ∨ r.changesFunctions = false)) ∧
    ((new limit host).after explain requests).bindings.functionNames.Pairwise (· < ·) ∧
    ∀ name, name ∈ ((new limit host).after explain requests).bindings.functionNames ↔
      (((new limit host).after explain requests).bindings.function? name).isSome := by
  refine ⟨fun name => ?_, fun name => ?_, after_limit explain _ requests, fun r => ⟨?_, ?_, ?_⟩,
    Bindings.pairwise_functionNames _, Bindings.mem_functionNames _⟩
  · rw [after_value?, new, Bindings.value?_empty]
    cases requests.reverse.findSome? (·.writtenValue? name) <;> rfl
  · rw [after_function?, new, Bindings.function?_empty, Option.or_none]
  · exact perform_values explain _
  · exact perform_functions explain _
  · cases r <;> first | exact .inl rfl | exact .inr rfl

/-- Variables that are set, loaded, and set again under a name in another case. -/
def someRequests : List (Request Unit) :=
  [.setVariable "x" (.number 1), .loadJson "\x7b\"x\":2,\"y\":true\x7d",
    .setVariable "X" (.number 3), .loadJson "\x7b\"x\":null\x7d", .addStandardFunctions]

theorem after_someRequests :
    (((new 8 ()).after id someRequests).bindings.value? "x" = some (.number 2)) ∧
    ((new 8 ()).after id someRequests).bindings.function? "sum" = none ∧
    (((new 8 ()).after id someRequests).perform id (.execute "x+")).2.bindings.values =
      ((new 8 ()).after id someRequests).bindings.values := by
  refine ⟨?_, ?_, ?_⟩
  · have loaded : Json.readVariables id "\x7b\"x\":2,\"y\":true\x7d" =
        .ok [("x", .number 2), ("y", .boolean true)] := by
      with_unfolding_all rfl
    have refused : Json.readVariables id "\x7b\"x\":null\x7d" =
        .error (.json "'x' is null") := by
      with_unfolding_all rfl
    refine ((after_requests id 8 () someRequests).1 "x").trans ?_
    simp only [someRequests, List.reverse_cons, List.reverse_nil, List.nil_append, List.cons_append,
      List.findSome?_cons, Request.writtenValue?, Json.givenValue?_of_readVariables_eq_ok loaded,
      Json.givenValue?_of_readVariables_eq_error refused]
    rfl
  · exact ((after_requests id 8 () someRequests).2.1 "sum").trans (by decide +kernel)
  · exact ((after_requests id 8 () someRequests).2.2.2.1 (.execute "x+")).1 rfl

end Session

end SheetFormula
