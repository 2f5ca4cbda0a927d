import Std.Data.TreeMap.Lemmas
import SheetFormula.Error

/-!
# Names and what they stand for

A formula is evaluated against bindings: variables, which stand for values, and host functions,
which may read and change a state of their own. The two kinds of names do not meet, names are told
apart by case, and binding a name again replaces what it stood for. Names are kept in the order of
their code points.

What bindings mean is what `value?` and `function?` find. For each operation on bindings two lemmas
say what they find after it, so that no proof opens the maps: a variable that is set has its value
and others keep theirs (`value?_setVariable`), of several entries with one name the last counts
(`value?_setVariables`), replacing the variables leaves only the new ones
(`value?_replaceVariables`), and no operation on variables is seen by functions, nor the other way
round (`function?_setVariable`, `value?_setFunction`).
-/

namespace SheetFormula

/-- A function that formulas can call. It gets the values of its arguments in order and checks
their number and kinds itself; it may change a state of type `σ`. -/
def HostFunction (σ : Type) := List Value → σ → Except Error Value × σ

/-- A function without a state. -/
def HostFunction.ofPure {σ : Type} (f : List Value → Except Error Value) : HostFunction σ :=
  fun arguments state => (f arguments, state)

/-- What the names in formulas stand for. -/
structure Bindings (σ : Type) where
  values : Std.TreeMap String Value
  functions : Std.TreeMap String (HostFunction σ)

namespace Bindings

variable {σ : Type}

/-- No name stands for anything. -/
def empty : Bindings σ :=
  ⟨∅, ∅⟩

/-- The value of a variable. -/
def value? (b : Bindings σ) (name : String) : Option Value :=
  b.values[name]?

/-- Let a variable stand for a value. -/
def setVariable (b : Bindings σ) (name : String) (value : Value) : Bindings σ :=
  { b with values := b.values.insert name value }

/-- Let the variables of a list stand for their values, the later ones in place of the earlier. -/
def setVariables (b : Bindings σ) (entries : List (String × Value)) : Bindings σ :=
  entries.foldl (fun b entry => b.setVariable entry.1 entry.2) b

/-- Forget all variables. -/
def clearVariables (b : Bindings σ) : Bindings σ :=
  { b with values := ∅ }

/-- Forget all variables and set those of a list instead. -/
def replaceVariables (b : Bindings σ) (entries : List (String × Value)) : Bindings σ :=
  b.clearVariables.setVariables entries

/-- The function of a name. -/
def function? (b : Bindings σ) (name : String) : Option (HostFunction σ) :=
  b.functions[name]?

/-- Let a name stand for a function. -/
def setFunction (b : Bindings σ) (name : String) (f : HostFunction σ) : Bindings σ :=
  { b with functions := b.functions.insert name f }

/-- Whether a name stands for a function. -/
def hasFunction (b : Bindings σ) (name : String) : Bool :=
  b.functions.contains name

/-- The names of all functions, in order. -/
def functionNames (b : Bindings σ) : List String :=
  b.functions.keys

/-- The variables with their values, in the order of their names. -/
def variableEntries (b : Bindings σ) : List (String × Value) :=
  b.values.toList

/-! ## What names stand for after each operation -/

@[simp]
theorem value?_empty (name : String) : (empty : Bindings σ).value? name = none :=
  Std.TreeMap.getElem?_emptyc

@[simp]
theorem function?_empty (name : String) : (empty : Bindings σ).function? name = none :=
  Std.TreeMap.getElem?_emptyc

/-- The last value that a variable was set to counts, and other variables keep theirs. -/
theorem value?_setVariable (b : Bindings σ) (name other : String) (value : Value) :
    (b.setVariable name value).value? other =
      if name = other then some value else b.value? other := by
  simp [value?, setVariable, Std.TreeMap.getElem?_insert]

@[simp]
theorem function?_setVariable (b : Bindings σ) (name other : String) (value : Value) :
    (b.setVariable name value).function? other = b.function? other :=
  rfl

@[simp]
theorem value?_clearVariables (b : Bindings σ) (name : String) :
    b.clearVariables.value? name = none :=
  Std.TreeMap.getElem?_emptyc

@[simp]
theorem function?_clearVariables (b : Bindings σ) (name : String) :
    b.clearVariables.function? name = b.function? name :=
  rfl

/-- The last function that a name was given counts, and other names keep theirs. -/
theorem function?_setFunction (b : Bindings σ) (name other : String) (f : HostFunction σ) :
    (b.setFunction name f).function? other =
      if name = other then some f else b.function? other := by
  simp [function?, setFunction, Std.TreeMap.getElem?_insert]

@[simp]
theorem value?_setFunction (b : Bindings σ) (name other : String) (f : HostFunction σ) :
    (b.setFunction name f).value? other = b.value? other :=
  rfl

/-- Of several entries with one name the last counts. -/
theorem value?_setVariables (b : Bindings σ) (entries : List (String × Value)) (name : String) :
    (b.setVariables entries).value? name =
      ((entries.reverse.find? (·.1 = name)).map Prod.snd).or (b.value? name) := by
  induction entries generalizing b with
  | nil => simp [setVariables]
  | cons entry others ih =>
    have ih := ih (b.setVariable entry.1 entry.2)
    simp only [setVariables, List.foldl_cons] at ih ⊢
    rw [ih, value?_setVariable, List.reverse_cons, List.find?_append]
    cases others.reverse.find? (·.1 = name) <;> by_cases h : entry.1 = name <;> simp [h]

@[simp]
theorem function?_setVariables (b : Bindings σ) (entries : List (String × Value))
    (name : String) : (b.setVariables entries).function? name = b.function? name := by
  induction entries generalizing b with
  | nil => rfl
  | cons entry others ih => exact ih (b.setVariable entry.1 entry.2)

/-- Replacing the variables leaves only the new ones. -/
theorem value?_replaceVariables (b : Bindings σ) (entries : List (String × Value))
    (name : String) : (b.replaceVariables entries).value? name =
      (entries.reverse.find? (·.1 = name)).map Prod.snd := by
  simp [replaceVariables, value?_setVariables]

@[simp]
theorem function?_replaceVariables (b : Bindings σ) (entries : List (String × Value))
    (name : String) : (b.replaceVariables entries).function? name = b.function? name := by
  simp [replaceVariables]

end Bindings

end SheetFormula
