import Mathlib.Data.List.Perm.Lattice
import SheetFormula.Proofs.Json.NumberTexts
import SheetFormula.Proofs.Json.Variables

/-!
# Values that are written as JSON and read back

A map from names to values can be written as a JSON object, each value as its own text
(`Json.entriesText`). Reading the object gives the names and the values back, a string or a boolean
as it was and a number as the one that the reader makes of its text (`Value.ReadsBackAs`); where
the reader is exact this is the number itself (`Value.ReadsBackAs.eq`). A number that is not finite
has no text but that of `null`, so a map with such a number is refused, and the error is about the
first name that has one. This is `Json.readVariables_entriesText`, for all maps and all values.

The text of a value is one token and a whole tree (`Value.exists_tree`). For a string this is
`Json.writesString_escape`, and for a finite number it is `Json.exists_numberText`, which is the
only place where doubles are looked into. From then on a value is the tree that its text writes
(`Value.tree`), and `Value.tree_spec` is all that is used of it.

So the text of a map writes the object of these trees (`Json.writes_entriesText`), and what it
comes to follows from `SheetFormula.Proofs.Json.Variables`: without repeated names the last value
of a name is its only one (`Json.lastValue?_entryTrees`), all of them are values if the numbers are
finite (`Json.allValues_entryTrees`), and the entries that are read are those of the map, in the
order of names.
-/

namespace SheetFormula

namespace Json

theorem depth_of_tokens_eq_singleton {j : Json} {t : Token} (h : j.tokens = [t]) : j.depth = 0 := by
  cases j <;> first | rfl | simp [tokens] at h

/-- A text of one token is the tree that the token is. -/
theorem ofString?_of_written {text : String} {j : Json} {t : Token}
    (written : t.Written text.toList) (tokens : j.tokens = [t]) : ofString? text = some j := by
  refine ofString?_eq_some_iff.mpr ⟨?_, depth_of_tokens_eq_singleton tokens ▸ Nat.zero_le _⟩
  rw [tokens]
  simpa using Spelled.nil.cons written

theorem written_quote (s : String) : (Token.string s).Written (quote s).toList := by
  have written := Token.Written.string (writesString_escape s.toList)
  rw [String.ofList_toList] at written
  simpa [quote] using written


end Json

namespace Value

open Json

/-- The values that have a JSON text of their own: all but the numbers that are not finite. -/
def isFinite : Value → Bool
  | .number x => x.isFinite
  | _ => true

/-- What a value comes to when its text is read: a number is what the reader makes of its digits,
and any other value is itself. -/
def ReadsBackAs (v w : Value) : Prop :=
  match v with
  | .number _ => ∃ y, w = .number y ∧ ofString? v.jsonText = some (.number y)
  | _ => w = v

theorem jsonText_eq_null {x : Float} (h : x.isFinite = false) : (number x).jsonText = "null" := by
  rw [jsonText, Number.Layout.text]
  cases hx : Number.Binary.ofFloat x with
  | nan => rfl
  | infinite negative => cases negative <;> rfl
  | finite negative m =>
    have finite := (Number.exists_ofFloat_eq_finite_iff x).mp ⟨negative, m, hx⟩
    rw [h] at finite
    cases finite

/-- The text of a value is one token and a whole tree: the value, or `null` if it is not
finite. -/
theorem exists_tree (v : Value) : ∃ (t : Json.Token) (j : Json),
    t.Written v.jsonText.toList ∧ j.tokens = [t] ∧
    (v.isFinite = true → ∃ w, j.toValue? = some w ∧ v.ReadsBackAs w) ∧
    (v.isFinite = false → j = .null) := by
  cases v with
  | string s => exact ⟨_, .string s, written_quote s, rfl, fun _ => ⟨_, rfl, rfl⟩, nofun⟩
  | boolean b =>
    refine ⟨.scalar (.boolean b), .boolean b, ?_, rfl, fun _ => ⟨_, rfl, rfl⟩, nofun⟩
    cases b
    · exact .word rfl
    · exact .word rfl
  | number x =>
    cases finite : x.isFinite with
    | true =>
      obtain ⟨n, wellFormed, text, y, value⟩ := exists_numberText finite
      have written : (Token.scalar (.number y)).Written (number x).jsonText.toList := by
        rw [jsonText, ← text]
        exact .number wellFormed value
      refine ⟨_, .number y, written, rfl, fun _ => ⟨_, rfl, y, rfl, ?_⟩, fun h => ?_⟩
      · exact ofString?_of_written written rfl
      · exact absurd (finite.symm.trans h) (by decide)
    | false =>
      refine ⟨_, .null, ?_, rfl, fun h => absurd (finite.symm.trans h) (by decide), fun _ => rfl⟩
      rw [jsonText_eq_null finite]
      exact .word rfl

/-- The tree that the text of a value writes. -/
def tree (v : Value) : Json :=
  (ofString? v.jsonText).getD .null

theorem tree_spec (v : Value) : ∃ t : Json.Token,
    t.Written v.jsonText.toList ∧ v.tree.tokens = [t] ∧
    (v.isFinite = true → ∃ w, v.tree.toValue? = some w ∧ v.ReadsBackAs w) ∧
    (v.isFinite = false → v.tree = .null) := by
  obtain ⟨t, j, written, tokens, spec⟩ := v.exists_tree
  have same : v.tree = j := by rw [tree, ofString?_of_written written tokens, Option.getD_some]
  exact ⟨t, written, same ▸ tokens, same ▸ spec⟩

theorem tree_eq_null {v : Value} (h : v.isFinite = false) : v.tree = .null := by
  obtain ⟨t, -, -, -, null⟩ := v.tree_spec
  exact null h

/-- Where the reader is exact, a value reads back as itself. -/
theorem ReadsBackAs.eq {v w : Value} (h : v.ReadsBackAs w)
    (exactly : ∀ x, v = .number x → ofString? v.jsonText = some (.number x)) : w = v := by
  cases v with
  | number x =>
    obtain ⟨y, rfl, read⟩ := h
    cases (exactly x rfl).symm.trans read
    rfl
  | string | boolean => exact h

end Value

namespace Json

/-- The text of a map from names to values as an object. -/
def entriesText (entries : List (String × Value)) : String :=
  "\x7b" ++ ",".intercalate (entries.map fun entry => quote entry.1 ++ ":" ++ entry.2.jsonText) ++
    "\x7d"

/-- The members of an object that a map from names to values is written as. -/
def entryTrees (entries : List (String × Value)) : List (String × Json) :=
  entries.map fun entry => (entry.1, entry.2.tree)

theorem spelled_entries {rest : List Char} {ts : List Token} (others : Spelled rest ts) :
    ∀ entries : List (String × Value),
      Spelled ((",".intercalate
        (entries.map fun entry => quote entry.1 ++ ":" ++ entry.2.jsonText)).toList ++ rest)
        (memberTokens (entryTrees entries) ++ ts)
  | [] => by simpa [entryTrees, memberTokens] using others
  | [(name, v)] => by
    obtain ⟨t, written, tokens, -⟩ := v.tree_spec
    have spelled := (others.cons written).cons (.punctuation (c := ':') rfl)
    simpa [entryTrees, memberTokens, tokens] using spelled.cons (written_quote name)
  | (name, v) :: next :: more => by
    obtain ⟨t, written, tokens, -⟩ := v.tree_spec
    have following := (spelled_entries others (next :: more)).cons (.punctuation (c := ',') rfl)
    have spelled := (following.cons written).cons (.punctuation (c := ':') rfl)
    simpa [entryTrees, memberTokens, tokens, String.intercalate_cons_cons] using
      spelled.cons (written_quote name)

theorem memberDepth_entryTrees (entries : List (String × Value)) :
    memberDepth (entryTrees entries) = 0 := by
  induction entries with
  | nil => rfl
  | cons entry entries ih =>
    obtain ⟨t, -, tokens, -⟩ := entry.2.tree_spec
    rw [entryTrees, List.map_cons, memberDepth, depth_of_tokens_eq_singleton tokens]
    exact ih

theorem writes_entriesText (entries : List (String × Value)) :
    Writes (entriesText entries) (.object (entryTrees entries)) := by
  constructor
  · have closing := Spelled.nil.cons (.punctuation (c := '\x7d') rfl)
    have spelled := (spelled_entries closing entries).cons (.punctuation (c := '\x7b') rfl)
    simpa [entriesText, tokens] using spelled
  · rw [depth, memberDepth_entryTrees]
    decide

section Distinct

variable {explain : String → String} {entries : List (String × Value)} {name : String}

theorem lastValue?_entryTrees (nodup : (entries.map Prod.fst).Nodup) {j : Json} :
    lastValue? (entryTrees entries) name = some j ↔ ∃ v, (name, v) ∈ entries ∧ v.tree = j := by
  have names : (entryTrees entries).map Prod.fst = entries.map Prod.fst := by
    simp [entryTrees, Function.comp_def]
  rw [lastValue?_eq_some_iff_mem (names ▸ nodup), entryTrees, List.mem_map]
  constructor
  · rintro ⟨entry, mem, same⟩
    cases same
    exact ⟨entry.2, mem, rfl⟩
  · rintro ⟨v, mem, rfl⟩
    exact ⟨(name, v), mem, rfl⟩

theorem isSome_toValue?_tree (v : Value) : v.tree.toValue?.isSome = v.isFinite := by
  obtain ⟨t, -, -, value, null⟩ := v.tree_spec
  cases finite : v.isFinite with
  | true =>
    obtain ⟨w, h, -⟩ := value finite
    rw [h, Option.isSome_some]
  | false =>
    rw [null finite]
    rfl

theorem allValues_entryTrees (nodup : (entries.map Prod.fst).Nodup) :
    AllValues (entryTrees entries) ↔ ∀ entry ∈ entries, entry.2.isFinite = true := by
  have final (entry : String × Value) (mem : entry ∈ entries) :
      finalValue? (entryTrees entries) entry.1 = entry.2.tree.toValue? := by
    rw [finalValue?, (lastValue?_entryTrees nodup).mpr ⟨entry.2, mem, rfl⟩, Option.bind_some]
  simp only [AllValues, entryTrees, List.forall_mem_map] at final ⊢
  refine forall₂_congr fun entry mem => ?_
  rw [final entry mem, isSome_toValue?_tree]

theorem mem_valueEntries_entryTrees (nodup : (entries.map Prod.fst).Nodup) {w : Value} :
    (name, w) ∈ valueEntries (entryTrees entries) ↔
      ∃ v, (name, v) ∈ entries ∧ v.tree.toValue? = some w := by
  rw [← lastValue?_eq_some_iff_mem (nodup_valueEntries _), lastValue?_valueEntries, finalValue?,
    Option.bind_eq_some_iff]
  constructor
  · rintro ⟨j, last, value⟩
    obtain ⟨v, mem, rfl⟩ := (lastValue?_entryTrees nodup).mp last
    exact ⟨v, mem, value⟩
  · rintro ⟨v, mem, value⟩
    exact ⟨v.tree, (lastValue?_entryTrees nodup).mpr ⟨v, mem, rfl⟩, value⟩

/-- Each finite value comes back under its name. -/
theorem exists_mem_valueEntries (nodup : (entries.map Prod.fst).Nodup)
    (finite : ∀ entry ∈ entries, entry.2.isFinite = true) {v : Value} (mem : (name, v) ∈ entries) :
    ∃ w, (name, w) ∈ valueEntries (entryTrees entries) ∧ v.ReadsBackAs w := by
  obtain ⟨t, -, -, value, -⟩ := v.tree_spec
  obtain ⟨w, h, readsBack⟩ := value (finite _ mem)
  exact ⟨w, (mem_valueEntries_entryTrees nodup).mpr ⟨v, mem, h⟩, readsBack⟩

theorem perm_names_valueEntries (nodup : (entries.map Prod.fst).Nodup)
    (finite : ∀ entry ∈ entries, entry.2.isFinite = true) :
    ((valueEntries (entryTrees entries)).map Prod.fst).Perm (entries.map Prod.fst) := by
  refine (List.perm_ext_iff_of_nodup (nodup_valueEntries _) nodup).mpr fun name => ?_
  constructor
  · intro named
    obtain ⟨⟨name, w⟩, mem, rfl⟩ := List.mem_map.mp named
    obtain ⟨v, mem, -⟩ := (mem_valueEntries_entryTrees nodup).mp mem
    exact List.mem_map.mpr ⟨(name, v), mem, rfl⟩
  · intro named
    obtain ⟨⟨name, v⟩, mem, rfl⟩ := List.mem_map.mp named
    obtain ⟨w, loaded, -⟩ := exists_mem_valueEntries nodup finite mem
    exact List.mem_map.mpr ⟨(name, w), loaded, rfl⟩

theorem exists_number_of_not_finite {v : Value} (h : v.isFinite = false) :
    ∃ x, v = .number x ∧ x.isFinite = false := by
  cases v with
  | number x => exact ⟨x, rfl, h⟩
  | string | boolean => cases h

/-- A map from names to finite values that is written as an object is read back with the same
names, every string and boolean as it was, and every number as what the reader makes of its text:
as the number it was if the reader is exact there. A map with other numbers is refused for the
first of them in the order of names. -/
theorem readVariables_entriesText (nodup : (entries.map Prod.fst).Nodup) :
    ((∀ entry ∈ entries, entry.2.isFinite = true) →
      ∃ loaded, readVariables explain (entriesText entries) = .ok loaded ∧
        (loaded.map Prod.fst).Perm (entries.map Prod.fst) ∧
        ∀ name v, (name, v) ∈ entries → ∃ w, (name, w) ∈ loaded ∧ v.ReadsBackAs w ∧
          ((∀ x, v = .number x → ofString? v.jsonText = some (.number x)) → w = v)) ∧
    ((∃ entry ∈ entries, entry.2.isFinite = false) →
      ∃ name x, (name, .number x) ∈ entries ∧ x.isFinite = false ∧
        (∀ other y, (other, .number y) ∈ entries → y.isFinite = false → name ≤ other) ∧
        readVariables explain (entriesText entries) =
          .error (.json ("'" ++ name ++ "' is null"))) := by
  have writes := writes_entriesText entries
  constructor
  · intro finite
    refine ⟨_, readVariables_of_allValues explain writes ((allValues_entryTrees nodup).mpr finite),
      perm_names_valueEntries nodup finite, fun name v mem => ?_⟩
    obtain ⟨w, loaded, readsBack⟩ := exists_mem_valueEntries nodup finite mem
    exact ⟨w, loaded, readsBack, readsBack.eq⟩
  · rintro ⟨entry, mem, infinite⟩
    have refused : ¬AllValues (entryTrees entries) := fun all => by
      have finite := (allValues_entryTrees nodup).mp all entry mem
      exact absurd (infinite.symm.trans finite) (by decide)
    obtain ⟨name, j, first, h⟩ := readVariables_of_not_allValues explain writes refused
    obtain ⟨v, mem, rfl⟩ := (lastValue?_entryTrees nodup).mp first.last
    have notFinite : v.isFinite = false := by
      rw [← isSome_toValue?_tree, first.noValue, Option.isSome_none]
    obtain ⟨x, rfl, infinite⟩ := exists_number_of_not_finite notFinite
    have null := Value.tree_eq_null notFinite
    refine ⟨name, x, mem, infinite, fun other y memOther infiniteOther => ?_, ?_⟩
    · refine first.first other (Value.tree (.number y))
        ((lastValue?_entryTrees nodup).mpr ⟨_, memOther, rfl⟩) ?_
      rw [Value.tree_eq_null (v := .number y) infiniteOther, toValue?]
    · rw [h, null, complaint, String.append_assoc]
      rfl

end Distinct

/-- A string with characters that must be escaped and one that takes two code units, under a name
of such characters; and of two numbers that are not finite, the one that comes first. -/
theorem readVariables_entriesText_escapes :
    (∃ loaded,
      readVariables id (entriesText [("\"\\", .string "\x00\n😀"), ("n", .number 1.5)]) =
        .ok loaded ∧ ("\"\\", .string "\x00\n😀") ∈ loaded ∧ ("n", .number 1.5) ∈ loaded) ∧
    readVariables id
        (entriesText [("b", .number Number.notANumber), ("a", .number Number.infinity)]) =
      .error (.json "'a' is null") := by
  constructor
  · have distinct : ([("\"\\", .string "\x00\n😀"), ("n", .number 1.5)].map
        (Prod.fst : String × Value → String)).Nodup := by decide
    obtain ⟨loaded, ok, -, values⟩ := (readVariables_entriesText distinct).1 (by decide +kernel)
    refine ⟨loaded, ok, ?_, ?_⟩
    · obtain ⟨w, mem, rfl, -⟩ := values _ _ List.mem_cons_self
      exact mem
    · obtain ⟨w, mem, -, eq⟩ := values "n" (.number 1.5) (by simp)
      rw [eq ?_] at mem
      · exact mem
      · rintro x ⟨⟩
        with_unfolding_all rfl
  · have distinct : ([("b", .number Number.notANumber), ("a", .number Number.infinity)].map
        (Prod.fst : String × Value → String)).Nodup := by decide
    obtain ⟨name, x, mem, -, first, refused⟩ :=
      (readVariables_entriesText distinct).2 ⟨_, List.mem_cons_self, by decide +kernel⟩
    have atMost := first "a" Number.infinity (by simp) (by decide +kernel)
    simp only [List.mem_cons, Prod.mk.injEq, List.not_mem_nil, or_false] at mem
    rcases mem with ⟨rfl, -⟩ | ⟨rfl, -⟩
    · exact absurd atMost (by decide)
    · exact refused

end Json

end SheetFormula
