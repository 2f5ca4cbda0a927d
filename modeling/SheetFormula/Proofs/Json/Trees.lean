import SheetFormula.Json.Tree
import SheetFormula.Proofs.Json.Tokens

/-!
# JSON texts and their trees

A text writes a tree if it is made up of the tokens of the tree and the tree is not nested too
deeply (`Json.Writes`). Reading finds exactly the trees that texts write
(`Json.ofString?_eq_some_iff`). So white space and the ways of writing a string or a number are all
that two texts of the same tree can differ in.

That each of these trees is found goes by induction on the tree: its tokens take a place where a
value must follow to one where it is complete (`Json.foldlM_tokens`), whatever is open there. Items
and members are read one after another, which is proved together with it, one theorem for each of
the three kinds of trees, lists of items and lists of members.

That nothing else is found goes by two invariants of the reading. What a place has taken in are the
tokens of its open arrays and objects and of what has begun (`Json.Progress.tokens_of_foldlM`), so
at the end they are those of the tree that is found. And these are no deeper than the limit
(`Json.Progress.Fits.of_foldlM`). Both follow from what one token can do to a place, which is said
once, with a constructor for each case (`Json.Progress.Moves`, `Json.Progress.moves_of_step`).

Between texts and tokens the results of `SheetFormula.Proofs.Json.Tokens` are used. They leave out
two numbers side by side, and the tokens of a tree have none (`Json.apart_tokens_append`).
-/

namespace SheetFormula.Json

mutual

/-- The tokens of a tree: brackets around the items of an array with commas between them, and braces
around the members of an object, each with its name and a colon before it. -/
def tokens : Json → List Token
  | .null => [.scalar .null]
  | .boolean b => [.scalar (.boolean b)]
  | .number x => [.scalar (.number x)]
  | .string s => [.string s]
  | .array items => .leftBracket :: (itemTokens items ++ [.rightBracket])
  | .object members => .leftBrace :: (memberTokens members ++ [.rightBrace])

/-- The tokens of items with commas between them. -/
def itemTokens : List Json → List Token
  | [] => []
  | [item] => item.tokens
  | item :: next :: others => item.tokens ++ .comma :: itemTokens (next :: others)

/-- The tokens of members with commas between them. -/
def memberTokens : List (String × Json) → List Token
  | [] => []
  | [(name, value)] => .string name :: .colon :: value.tokens
  | (name, value) :: next :: others =>
    .string name :: .colon :: (value.tokens ++ .comma :: memberTokens (next :: others))

end

mutual

/-- How many arrays and objects are nested in each other. -/
def depth : Json → Nat
  | .array items => itemDepth items + 1
  | .object members => memberDepth members + 1
  | _ => 0

/-- The greatest depth of an item. -/
def itemDepth : List Json → Nat
  | [] => 0
  | item :: others => max item.depth (itemDepth others)

/-- The greatest depth of a member. -/
def memberDepth : List (String × Json) → Nat
  | [] => 0
  | (_, value) :: others => max value.depth (memberDepth others)

end

/-! ## Every tree is read -/

/-- The first token of a tree begins a value. -/
theorem exists_tokens_eq_cons (j : Json) :
    ∃ t ts, j.tokens = t :: ts ∧ ∀ stack, Progress.step ⟨stack, .firstItem⟩ t =
      Progress.step ⟨.array [] :: stack, .value⟩ t := by
  cases j <;> exact ⟨_, _, rfl, fun _ => rfl⟩

/-- Items that begin right behind a bracket are read like any others. -/
theorem foldlM_firstItem (item : Json) (others : List Json) (stack : List Open)
    (rest : List Token) :
    (itemTokens (item :: others) ++ rest).foldlM Progress.step ⟨stack, .firstItem⟩ =
      (itemTokens (item :: others) ++ rest).foldlM Progress.step ⟨.array [] :: stack, .value⟩ := by
  obtain ⟨t, ts, htokens, same⟩ := exists_tokens_eq_cons item
  cases others <;> simp [itemTokens, htokens, same]

/-- Members that begin right behind a brace are read like any others. -/
theorem foldlM_firstName (member : String × Json) (others : List (String × Json))
    (stack : List Open) (rest : List Token) :
    (memberTokens (member :: others) ++ rest).foldlM Progress.step ⟨stack, .firstName⟩ =
      (memberTokens (member :: others) ++ rest).foldlM Progress.step ⟨stack, .nextName []⟩ := by
  cases others <;> rfl

mutual

/-- The tokens of a tree take a place where a value must follow to one where the tree is complete,
if its depth is within the limit. -/
theorem foldlM_tokens : ∀ (j : Json) (stack : List Open) (rest : List Token),
    stack.length + j.depth ≤ nestingLimit →
    (j.tokens ++ rest).foldlM Progress.step ⟨stack, .value⟩ =
      rest.foldlM Progress.step ⟨stack, .complete j⟩
  | .null, _, _, _ => rfl
  | .boolean _, _, _, _ => rfl
  | .number _, _, _, _ => rfl
  | .string _, _, _, _ => rfl
  | .array items, stack, rest, le => by
    have room : stack.length + 1 + itemDepth items ≤ nestingLimit := by
      rw [depth] at le
      omega
    have opened : Progress.step ⟨stack, .value⟩ .leftBracket = some ⟨stack, .firstItem⟩ :=
      if_pos (Nat.le_trans (Nat.le_add_right _ _) room)
    rw [tokens, List.cons_append, List.append_assoc, List.foldlM_cons, opened]
    cases items with
    | nil => rfl
    | cons item others =>
      exact (foldlM_firstItem item others stack _).trans
        (foldlM_itemTokens (item :: others) [] stack rest (List.cons_ne_nil _ _) room)
  | .object members, stack, rest, le => by
    have room : stack.length + 1 + memberDepth members ≤ nestingLimit := by
      rw [depth] at le
      omega
    have opened : Progress.step ⟨stack, .value⟩ .leftBrace = some ⟨stack, .firstName⟩ :=
      if_pos (Nat.le_trans (Nat.le_add_right _ _) room)
    rw [tokens, List.cons_append, List.append_assoc, List.foldlM_cons, opened]
    cases members with
    | nil => rfl
    | cons member others =>
      exact (foldlM_firstName member others stack _).trans
        (foldlM_memberTokens (member :: others) [] stack rest (List.cons_ne_nil _ _) room)

/-- The tokens of items are read one item after another, up to the bracket behind them. -/
theorem foldlM_itemTokens : ∀ (items done : List Json) (stack : List Open) (rest : List Token),
    items ≠ [] → stack.length + 1 + itemDepth items ≤ nestingLimit →
    (itemTokens items ++ ([Token.rightBracket] ++ rest)).foldlM Progress.step
        ⟨.array done :: stack, .value⟩ =
      rest.foldlM Progress.step ⟨stack, .complete (.array (done.reverse ++ items))⟩
  | [], _, _, _, nonempty, _ => absurd rfl nonempty
  | [item], done, stack, rest, _, le => by
    rw [itemDepth] at le
    have read := foldlM_tokens item (.array done :: stack) (Token.rightBracket :: rest)
      (by rw [List.length_cons]; omega)
    rw [itemTokens, List.singleton_append, read, List.foldlM_cons]
    simp [Progress.step, Progress.afterValue]
  | item :: next :: others, done, stack, rest, _, le => by
    rw [itemDepth] at le
    have read := foldlM_tokens item (.array done :: stack)
      (Token.comma :: (itemTokens (next :: others) ++ ([Token.rightBracket] ++ rest)))
      (by rw [List.length_cons]; omega)
    have others := foldlM_itemTokens (next :: others) (item :: done) stack rest
      (List.cons_ne_nil _ _) (by omega)
    rw [itemTokens, List.append_assoc, List.cons_append, read, List.foldlM_cons]
    simpa [Progress.step, Progress.afterValue] using others

/-- The tokens of members are read one member after another, up to the brace behind them. -/
theorem foldlM_memberTokens : ∀ (members done : List (String × Json)) (stack : List Open)
    (rest : List Token), members ≠ [] → stack.length + 1 + memberDepth members ≤ nestingLimit →
    (memberTokens members ++ ([Token.rightBrace] ++ rest)).foldlM Progress.step
        ⟨stack, .nextName done⟩ =
      rest.foldlM Progress.step ⟨stack, .complete (.object (done.reverse ++ members))⟩
  | [], _, _, _, nonempty, _ => absurd rfl nonempty
  | [(name, value)], done, stack, rest, _, le => by
    rw [memberDepth] at le
    have read := foldlM_tokens value (.member done name :: stack) (Token.rightBrace :: rest)
      (by rw [List.length_cons]; omega)
    rw [memberTokens, List.singleton_append, List.cons_append, List.cons_append]
    simp only [List.foldlM_cons, Progress.step, Option.bind_eq_bind, Option.bind_some]
    rw [read]
    simp [Progress.step, Progress.afterValue]
  | (name, value) :: next :: others, done, stack, rest, _, le => by
    rw [memberDepth] at le
    have read := foldlM_tokens value (.member done name :: stack)
      (Token.comma :: (memberTokens (next :: others) ++ ([Token.rightBrace] ++ rest)))
      (by rw [List.length_cons]; omega)
    have others := foldlM_memberTokens (next :: others) ((name, value) :: done) stack rest
      (List.cons_ne_nil _ _) (by omega)
    rw [memberTokens, List.cons_append, List.cons_append, List.append_assoc, List.cons_append]
    simp only [List.foldlM_cons, Progress.step, Option.bind_eq_bind, Option.bind_some] at read ⊢
    rw [read]
    simpa [Progress.step, Progress.afterValue] using others

end

/-! ## Only trees are read -/

/-- A token of a text, which stands for a tree only if it is one without parts. -/
def Token.IsProper : Token → Prop
  | .scalar value => value.tokens = [.scalar value]
  | _ => True

theorem depth_of_isProper {j : Json} (h : (Token.scalar j).IsProper) : j.depth = 0 := by
  cases j <;> first | rfl | cases h

theorem Token.Written.isProper {written : List Char} {t : Token} (h : t.Written written) :
    t.IsProper := by
  cases h with
  | punctuation known =>
    unfold punctuation? at known
    split at known <;> cases known <;> trivial
  | word known =>
    unfold word? at known
    split at known <;> cases known <;> rfl
  | string => trivial
  | number => rfl

/-- The tokens of the members of an object up to its last comma. -/
def memberTokensBefore (done : List (String × Json)) : List Token :=
  .leftBrace :: done.flatMap fun member =>
    .string member.1 :: .colon :: (member.2.tokens ++ [.comma])

/-- The tokens that have begun an array or an object. -/
def Open.tokens : Open → List Token
  | .array done => .leftBracket :: done.reverse.flatMap fun item => item.tokens ++ [.comma]
  | .member done name => memberTokensBefore done.reverse ++ [.string name, .colon]

/-- The tokens after what has begun. -/
def Phase.tokens : Phase → List Token
  | .value => []
  | .firstItem => [.leftBracket]
  | .firstName => [.leftBrace]
  | .nextName done => memberTokensBefore done.reverse
  | .colon done name => memberTokensBefore done.reverse ++ [.string name]
  | .complete j => j.tokens

/-- The tokens before a place. -/
def Progress.tokens (p : Progress) : List Token :=
  p.stack.reverse.flatMap Open.tokens ++ p.phase.tokens

theorem itemTokens_concat (items : List Json) (last : Json) :
    itemTokens (items ++ [last]) =
      (items.flatMap fun item => item.tokens ++ [.comma]) ++ last.tokens := by
  induction items with
  | nil => simp [itemTokens]
  | cons item others ih => cases others <;> simp_all [itemTokens]

theorem memberTokens_concat (members : List (String × Json)) (name : String) (last : Json) :
    memberTokens (members ++ [(name, last)]) =
      (members.flatMap fun member => .string member.1 :: .colon :: (member.2.tokens ++ [.comma])) ++
        .string name :: .colon :: last.tokens := by
  induction members with
  | nil => simp [memberTokens]
  | cons member others ih => cases others <;> simp_all [memberTokens]

namespace Progress

/-- What reading a token can do to a place. -/
inductive Moves : Progress → Token → Progress → Prop where
  | scalar {stack value} : Moves ⟨stack, .value⟩ (.scalar value) ⟨stack, .complete value⟩
  | string {stack s} : Moves ⟨stack, .value⟩ (.string s) ⟨stack, .complete (.string s)⟩
  | openArray {stack} (room : stack.length < nestingLimit) :
    Moves ⟨stack, .value⟩ .leftBracket ⟨stack, .firstItem⟩
  | openObject {stack} (room : stack.length < nestingLimit) :
    Moves ⟨stack, .value⟩ .leftBrace ⟨stack, .firstName⟩
  | firstItem {stack t q} (begun : Moves ⟨.array [] :: stack, .value⟩ t q) :
    Moves ⟨stack, .firstItem⟩ t q
  | emptyArray {stack} : Moves ⟨stack, .firstItem⟩ .rightBracket ⟨stack, .complete (.array [])⟩
  | emptyObject {stack} : Moves ⟨stack, .firstName⟩ .rightBrace ⟨stack, .complete (.object [])⟩
  | firstName {stack name} : Moves ⟨stack, .firstName⟩ (.string name) ⟨stack, .colon [] name⟩
  | nextName {stack done name} :
    Moves ⟨stack, .nextName done⟩ (.string name) ⟨stack, .colon done name⟩
  | colon {stack done name} :
    Moves ⟨stack, .colon done name⟩ .colon ⟨.member done name :: stack, .value⟩
  | nextItem {stack done item} :
    Moves ⟨.array done :: stack, .complete item⟩ .comma ⟨.array (item :: done) :: stack, .value⟩
  | closeArray {stack done item} :
    Moves ⟨.array done :: stack, .complete item⟩ .rightBracket
      ⟨stack, .complete (.array (item :: done).reverse)⟩
  | nextMember {stack done name value} :
    Moves ⟨.member done name :: stack, .complete value⟩ .comma
      ⟨stack, .nextName ((name, value) :: done)⟩
  | closeObject {stack done name value} :
    Moves ⟨.member done name :: stack, .complete value⟩ .rightBrace
      ⟨stack, .complete (.object ((name, value) :: done).reverse)⟩

variable {p q : Progress} {stack : List Open} {t : Token}

theorem moves_of_begin (h : begin stack t = some q) : Moves ⟨stack, .value⟩ t q := by
  unfold begin at h
  split at h
  · cases h
    exact .scalar
  · cases h
    exact .string
  · split at h <;> cases h
    exact .openArray ‹_›
  · split at h <;> cases h
    exact .openObject ‹_›
  · cases h

theorem moves_of_afterValue {value : Json} (h : afterValue stack value t = some q) :
    Moves ⟨stack, .complete value⟩ t q := by
  unfold afterValue at h
  split at h <;> cases h
  · exact .nextItem
  · exact .closeArray
  · exact .nextMember
  · exact .closeObject

theorem moves_of_step (h : p.step t = some q) : Moves p t q := by
  obtain ⟨stack, phase⟩ := p
  cases phase with
  | value => exact moves_of_begin h
  | firstItem =>
    by_cases closed : t = .rightBracket
    · subst closed
      cases h
      exact .emptyArray
    · have h : begin (.array [] :: stack) t = some q := by
        cases t <;> first | exact h | exact absurd rfl closed
      exact .firstItem (moves_of_begin h)
  | firstName =>
    cases t <;> cases h
    · exact .emptyObject
    · exact .firstName
  | nextName =>
    cases t <;> cases h
    exact .nextName
  | colon =>
    cases t <;> cases h
    exact .colon
  | complete => exact moves_of_afterValue h

/-- A step goes on by its token. -/
theorem tokens_of_moves (proper : t.IsProper) (h : Moves p t q) : q.tokens = p.tokens ++ [t] := by
  induction h with
  | scalar =>
    simp only [tokens, Phase.tokens]
    rw [show Json.tokens _ = _ from proper, List.append_nil]
  | firstItem _ ih => simpa [tokens, Phase.tokens, Open.tokens] using ih proper
  | closeArray => simp [tokens, Phase.tokens, Open.tokens, Json.tokens, itemTokens_concat]
  | closeObject =>
    simp [tokens, Phase.tokens, Open.tokens, Json.tokens, memberTokensBefore, memberTokens_concat]
  | _ =>
    simp [tokens, Phase.tokens, Open.tokens, Json.tokens, itemTokens, memberTokens,
      memberTokensBefore]

/-- The tokens before a place are those that led to it. -/
theorem tokens_of_foldlM {ts : List Token} (proper : ∀ t ∈ ts, t.IsProper)
    (h : ts.foldlM step p = some q) : q.tokens = p.tokens ++ ts := by
  induction ts generalizing p with
  | nil =>
    cases h
    simp
  | cons t ts ih =>
    obtain ⟨next, stepped, read⟩ := Option.bind_eq_some_iff.mp h
    have isProper := List.forall_mem_cons.mp proper
    rw [ih isProper.2 read, tokens_of_moves isProper.1 (moves_of_step stepped),
      List.append_assoc, List.singleton_append]

end Progress

/-! ## No more may be open at once than the limit says -/

theorem itemDepth_append (items others : List Json) :
    itemDepth (items ++ others) = max (itemDepth items) (itemDepth others) := by
  induction items with
  | nil => simp [itemDepth]
  | cons item items ih => rw [List.cons_append, itemDepth, itemDepth, ih, Nat.max_assoc]

theorem itemDepth_reverse (items : List Json) : itemDepth items.reverse = itemDepth items := by
  induction items with
  | nil => rfl
  | cons item items ih =>
    rw [List.reverse_cons, itemDepth_append, ih, Nat.max_comm]
    simp [itemDepth]

theorem memberDepth_append (members others : List (String × Json)) :
    memberDepth (members ++ others) = max (memberDepth members) (memberDepth others) := by
  induction members with
  | nil => simp [memberDepth]
  | cons member members ih => rw [List.cons_append, memberDepth, memberDepth, ih, Nat.max_assoc]

theorem memberDepth_reverse (members : List (String × Json)) :
    memberDepth members.reverse = memberDepth members := by
  induction members with
  | nil => rfl
  | cons member members ih =>
    rw [List.reverse_cons, memberDepth_append, ih, Nat.max_comm]
    simp [memberDepth]

/-- The depth that an array or an object has so far. -/
def Open.depth : Open → Nat
  | .array done => itemDepth done + 1
  | .member done _ => memberDepth done + 1

/-- The depth of what stands at a place, after what has begun. -/
def Phase.depth : Phase → Nat
  | .value => 0
  | .firstItem | .firstName => 1
  | .nextName done | .colon done _ => memberDepth done + 1
  | .complete j => j.depth

/-- Everything that has begun is within the limit. -/
def StackFits : List Open → Prop
  | [] => True
  | o :: stack => stack.length + o.depth ≤ nestingLimit ∧ StackFits stack

namespace Progress

/-- Everything before a place is within the limit. -/
def Fits (p : Progress) : Prop :=
  p.stack.length + p.phase.depth ≤ nestingLimit ∧ StackFits p.stack

variable {p q : Progress} {t : Token}

/-- No token leads beyond the limit: the two that open something are refused there. -/
theorem Fits.of_moves (fits : p.Fits) (proper : t.IsProper) (h : Moves p t q) : q.Fits := by
  induction h with
  | scalar =>
    have flat := depth_of_isProper proper
    simp_all [Fits, Phase.depth]
  | firstItem _ ih =>
    exact ih ⟨fits.1, fits.1, fits.2⟩ proper
  | _ =>
    simp_all [Fits, StackFits, Open.depth, Phase.depth, depth, itemDepth, memberDepth,
      itemDepth_append, itemDepth_reverse, memberDepth_append, memberDepth_reverse]
    try omega

theorem Fits.of_foldlM {ts : List Token} (fits : p.Fits) (proper : ∀ t ∈ ts, t.IsProper)
    (h : ts.foldlM step p = some q) : q.Fits := by
  induction ts generalizing p with
  | nil =>
    cases h
    exact fits
  | cons t ts ih =>
    obtain ⟨next, stepped, read⟩ := Option.bind_eq_some_iff.mp h
    have isProper := List.forall_mem_cons.mp proper
    exact ih (fits.of_moves isProper.1 (moves_of_step stepped)) isProper.2 read

end Progress

/-! ## No two numbers are side by side -/

/-- Two numbers do not follow each other. -/
abbrev Apart (ts : List Token) : Prop :=
  ts.IsChain fun t t' => t.isNumber = true → t'.isNumber = false

theorem apart_cons {t : Token} {ts : List Token} (noNumber : t.isNumber = false)
    (apart : Apart ts) : Apart (t :: ts) :=
  List.isChain_cons.mpr ⟨fun _ _ isNumber => absurd isNumber (by simp [noNumber]), apart⟩

mutual

/-- Within a tree two numbers have a comma between them at least. -/
theorem apart_tokens_append : ∀ (j : Json) (rest : List Token),
    (∀ t ∈ rest.head?, t.isNumber = false) → Apart rest → Apart (j.tokens ++ rest)
  | .null, _, _, apart | .boolean _, _, _, apart | .string _, _, _, apart => apart_cons rfl apart
  | .number _, _, noNumber, apart =>
    List.isChain_cons.mpr ⟨fun t mem _ => noNumber t mem, apart⟩
  | .array items, rest, _, apart => by
    rw [tokens, List.cons_append, List.append_assoc]
    exact apart_cons rfl (apart_itemTokens_append items _ (by simp [Token.isNumber])
      (apart_cons rfl apart))
  | .object members, rest, _, apart => by
    rw [tokens, List.cons_append, List.append_assoc]
    exact apart_cons rfl (apart_memberTokens_append members _ (by simp [Token.isNumber])
      (apart_cons rfl apart))

theorem apart_itemTokens_append : ∀ (items : List Json) (rest : List Token),
    (∀ t ∈ rest.head?, t.isNumber = false) → Apart rest → Apart (itemTokens items ++ rest)
  | [], _, _, apart => apart
  | [item], rest, noNumber, apart => apart_tokens_append item rest noNumber apart
  | item :: next :: others, rest, noNumber, apart => by
    rw [itemTokens, List.append_assoc, List.cons_append]
    exact apart_tokens_append item _ (by simp [Token.isNumber])
      (apart_cons rfl (apart_itemTokens_append (next :: others) rest noNumber apart))

theorem apart_memberTokens_append : ∀ (members : List (String × Json)) (rest : List Token),
    (∀ t ∈ rest.head?, t.isNumber = false) → Apart rest → Apart (memberTokens members ++ rest)
  | [], _, _, apart => apart
  | [(_, value)], rest, noNumber, apart =>
    apart_cons rfl (apart_cons rfl (apart_tokens_append value rest noNumber apart))
  | (_, value) :: next :: others, rest, noNumber, apart => by
    rw [memberTokens, List.cons_append, List.cons_append, List.append_assoc, List.cons_append]
    exact apart_cons rfl (apart_cons rfl (apart_tokens_append value _ (by simp [Token.isNumber])
      (apart_cons rfl (apart_memberTokens_append (next :: others) rest noNumber apart))))

end

/-! ## The texts of a tree -/

/-- The text writes the tree, which nests no more arrays and objects than the limit says. -/
structure Writes (text : String) (j : Json) : Prop where
  spelled : Spelled text.toList j.tokens
  depth_le : j.depth ≤ nestingLimit

/-- Reading gives a tree for exactly the texts that write it. -/
theorem ofString?_eq_some_iff {text : String} {j : Json} :
    ofString? text = some j ↔ Writes text j := by
  constructor
  · intro h
    obtain ⟨ts, found, h⟩ := Option.bind_eq_some_iff.mp h
    obtain ⟨p, read, result⟩ := Option.bind_eq_some_iff.mp h
    obtain ⟨us, hus, spelled⟩ := spelled_of_tokens? found
    have proper : ∀ t ∈ ts, t.IsProper := by
      intro t mem
      rw [hus] at mem
      obtain ⟨written, h⟩ := spelled.exists_written mem
      exact h.isProper
    have complete : p = ⟨[], .complete j⟩ := by
      unfold Progress.result? at result
      split at result
      · next stack phase =>
        cases p
        cases result
        simp_all
      · cases result
    subst complete
    have tokens := Progress.tokens_of_foldlM proper read
    have start : Progress.Fits ⟨[], .value⟩ := ⟨Nat.zero_le _, trivial⟩
    have fits := start.of_foldlM proper read
    have same : us = j.tokens := by
      simpa [Progress.tokens, Phase.tokens, hus] using tokens.symm
    exact ⟨same ▸ spelled, by simpa [Phase.depth] using fits.1⟩
  · intro ⟨spelled, depth_le⟩
    have apart : Apart j.tokens := by
      simpa using apart_tokens_append j [] (by simp) .nil
    have found := tokens?_of_spelled spelled apart []
    have read := foldlM_tokens j [] [] (by simpa using depth_le)
    rw [List.append_nil] at read
    simp [ofString?, found, read, Progress.result?]

end SheetFormula.Json
