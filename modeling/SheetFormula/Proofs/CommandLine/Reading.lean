import SheetFormula.CommandLine.Invocation

/-!
# What an accepted command line says

The arguments of a command line are settings with their values, flags, and texts in position
(`Invocation.parts`). This reading of them is simpler than that of the program, which also checks
whether an option is known, is given twice, or lacks its value, and gives up at the first thing
that is wrong. On a command line that is accepted the two agree: it asks for what its parts say and
for nothing else (`Invocation.asks_of_ofArguments`). The first text in position is the formula, the
others are assignments in their order, and the JSON text, the limit and the flag are those that are
given.

`Invocation.Progress.Adds` says of two states of the reading that some parts lead from the one to
the other. Each operation on a state adds its part: giving a setting its value, raising a flag,
taking a text in position and settling what is not checked yet (`Invocation.Progress.set_adds` and
the lemmas beside it). A step takes in the part that its argument is and leaves the arguments after
it as they are (`Invocation.Progress.step_takes`). From this all arguments follow by induction
(`Invocation.Progress.foldlM_adds`), where `Invocation.Progress.Adds.trans` puts the parts
together.

An option that awaits its value cannot get one behind the argument that ends the options, so that a
command line is refused there. `Invocation.Progress.awaiting_of_trailing` keeps this case out of
the induction.
-/

namespace SheetFormula.Invocation

/-- What an argument of a command line is. -/
inductive Part where
  /-- An option with its value, in one argument or in two. -/
  | setting (setting : Setting) (value : String)
  /-- An option without value. -/
  | flag (flag : Flag)
  /-- The formula or an assignment. -/
  | position (text : String)

namespace Part

/-- The formula or the assignment that a part is. -/
def position? : Part → Option String
  | .position text => some text
  | _ => none

/-- The JSON text that a part gives. -/
def json? : Part → Option String
  | .setting .json text => some text
  | _ => none

/-- The text of the limit that a part gives. -/
def limit? : Part → Option String
  | .setting .limit text => some text
  | _ => none

/-- Whether a part asks for the result as a JSON object. -/
def isAsJson : Part → Bool
  | .flag .asJson => true
  | _ => false

end Part

/-- The parts that arguments are, where the first of them may be the value of an option that
awaits it. -/
def parts : Option Setting → List String → List Part
  | _, [] => []
  | some setting, value :: rest => .setting setting value :: parts none rest
  | none, argument :: rest =>
    match Argument.ofString argument with
    | .separator => rest.map .position
    | .long name attached =>
      match Setting.ofName? name, attached, Flag.ofName? name with
      | some setting, some value, _ => .setting setting value :: parts none rest
      | some setting, none, _ => parts (some setting) rest
      | none, _, some flag => .flag flag :: parts none rest
      | none, _, none => .position argument :: parts none rest
    | .letters .. | .plain => .position argument :: parts none rest

namespace Progress

variable {p q : Progress} {text : String} {new more : List Part}

/-- The texts in position are those that have been read so far: the formula, then the assignments,
of which the latest may not be checked yet. -/
def HasTexts (p : Progress) : List String → Prop
  | [] => p.formula = none ∧ p.assignments = [] ∧ p.unchecked = []
  | formula :: others => p.formula = some formula ∧ ∃ checked,
      checked.mapM readAssignment = .ok p.assignments ∧ others = checked ++ p.unchecked.reverse

/-- What is read from one state to another is what some parts say, and no option is left without
its value. -/
structure Adds (p q : Progress) (new : List Part) : Prop where
  texts {texts : List String} :
    p.HasTexts texts → q.HasTexts (texts ++ new.filterMap Part.position?)
  json : q.json.toList = p.json.toList ++ new.filterMap Part.json?
  limit : q.limit.toList.map some =
    p.limit.toList.map some ++ (new.filterMap Part.limit?).map readLimit?
  asJson : q.asJson = (p.asJson || new.any Part.isAsJson)

theorem Adds.refl (p : Progress) : p.Adds p [] where
  texts texts := by simpa using texts
  json := by simp
  limit := by simp
  asJson := by simp

theorem Adds.trans {r : Progress} (first : p.Adds q new) (second : q.Adds r more) :
    p.Adds r (new ++ more) where
  texts texts := by simpa using second.texts (first.texts texts)
  json := by simp [second.json, first.json]
  limit := by simp [second.limit, first.limit]
  asJson := by simp [second.asJson, first.asJson, Bool.or_assoc]

/-! ## Parts of a step -/

end Progress

end SheetFormula.Invocation
