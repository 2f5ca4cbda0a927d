import Mathlib.Data.List.Nodup
import SheetFormula.Proofs.Json.Trees
import SheetFormula.Session

/-!
# Variables from JSON

A text gives variables if it writes an object each of whose names has a value at its last place
(`Json.AllValues`): what the same name had before is of no account, be it a value or not.
`Session.perform_loadJson` says what a session makes of any text. If the text gives variables,
these are set and all other ones are kept; otherwise the text is refused and the session is what it
was. An object that is refused has a first name, in the order of names, whose last value is none
(`Json.FirstRefused`), and the error is about this name.

`lastValue?` is the value of the last entry with a name. The members of an object go through a map,
and what comes out are the last ones of their names (`Json.mem_finalMembers`) in the order of names
(`Json.pairwise_finalMembers`). A member that is no value fails with its complaint
(`Json.ofMember_eq`), so that reading the members stops at the first one that is none
(`Json.readVariables_of_writes`). The two cases are `Json.readVariables_of_allValues` and
`Json.readVariables_of_not_allValues`, and `Json.readVariables_cases` adds the texts that write no
object. That these are all comes from `Json.ofString?_eq_some_iff`.

What is said about a text that is no JSON is an argument of the reading. Nothing here depends on
it: such a text is refused, whatever the message.
-/

namespace SheetFormula

/-- The value of the last entry with a given name. -/
def lastValue? {α : Type} (entries : List (String × α)) (name : String) : Option α :=
  (entries.reverse.find? (·.1 = name)).map Prod.snd

section LastValue

variable {α : Type} {name : String}

theorem lastValue?_append (entries others : List (String × α)) :
    lastValue? (entries ++ others) name =
      (lastValue? others name).or (lastValue? entries name) := by
  simp only [lastValue?, List.reverse_append, List.find?_append]
  cases others.reverse.find? (·.1 = name) <;> rfl

theorem lastValue?_singleton (entry : String × α) :
    lastValue? [entry] name = if entry.1 = name then some entry.2 else none := by
  by_cases h : entry.1 = name <;> simp [lastValue?, h]

theorem lastValue?_cons (entry : String × α) (entries : List (String × α)) :
    lastValue? (entry :: entries) name =
      (lastValue? entries name).or (if entry.1 = name then some entry.2 else none) := by
  rw [← lastValue?_singleton, ← lastValue?_append, List.singleton_append]

theorem mem_of_lastValue?_eq_some {entries : List (String × α)} {value : α}
    (h : lastValue? entries name = some value) : (name, value) ∈ entries := by
  obtain ⟨⟨other, value⟩, found, rfl⟩ := Option.map_eq_some_iff.mp h
  have same : other = name := by simpa using List.find?_some found
  exact same ▸ List.mem_reverse.mp (List.mem_of_find?_eq_some found)

theorem exists_lastValue?_of_mem {entries : List (String × α)} {entry : String × α}
    (mem : entry ∈ entries) : ∃ value, lastValue? entries entry.1 = some value := by
  have found : (entries.reverse.find? (·.1 = entry.1)).isSome :=
    List.find?_isSome.mpr ⟨entry, List.mem_reverse.mpr mem, by simp⟩
  obtain ⟨last, found⟩ := Option.isSome_iff_exists.mp found
  exact ⟨last.2, by rw [lastValue?, found, Option.map_some]⟩

/-- Where no name is repeated, every entry counts. -/
theorem lastValue?_eq_some_iff_mem {entries : List (String × α)} {value : α}
    (nodup : (entries.map Prod.fst).Nodup) :
    lastValue? entries name = some value ↔ (name, value) ∈ entries := by
  refine ⟨mem_of_lastValue?_eq_some, fun mem => ?_⟩
  obtain ⟨last, found⟩ := exists_lastValue?_of_mem mem
  have same := List.inj_on_of_nodup_map nodup (mem_of_lastValue?_eq_some found) mem rfl
  exact found.trans (congrArg some (Prod.ext_iff.mp same).2)

end LastValue

namespace Bindings

variable {σ : Type}

/-- A list of entries sets the names that stand in it, each to its last value. -/
theorem value?_setVariables_eq (b : Bindings σ) (entries : List (String × Value)) (name : String) :
    (b.setVariables entries).value? name = (lastValue? entries name).or (b.value? name) :=
  b.value?_setVariables entries name

@[simp]
theorem functions_setVariables (b : Bindings σ) (entries : List (String × Value)) :
    (b.setVariables entries).functions = b.functions := by
  induction entries generalizing b with
  | nil => rfl
  | cons entry entries ih => exact ih (b.setVariable entry.1 entry.2)

end Bindings

namespace Json

variable {explain : String → String} {text name : String} {members : List (String × Json)}
  {j : Json}

/-- The value that a tree is, unless it is `null` or has parts. -/
def toValue? : Json → Option Value
  | .boolean b => some (.boolean b)
  | .string s => some (.string s)
  | .number x => some (.number x)
  | .null | .array _ | .object _ => none

/-- What is wrong with a tree that is no value. -/
def complaint : Json → String
  | .null => "is null"
  | _ => "must be a number, string or boolean"

/-- The value that a name has at its last place in an object. -/
def finalValue? (members : List (String × Json)) (name : String) : Option Value :=
  (lastValue? members name).bind toValue?

/-- Every name in an object has a value at its last place. -/
def AllValues (members : List (String × Json)) : Prop :=
  ∀ member ∈ members, (finalValue? members member.1).isSome

instance : Decidable (AllValues members) :=
  inferInstanceAs (Decidable (∀ member ∈ members, _))

/-! ## The members that count -/

theorem getElem?_foldl_insert (members : List (String × Json)) (map : Std.TreeMap String Json) :
    (members.foldl (fun final member => final.insert member.1 member.2) map)[name]? =
      (lastValue? members name).or map[name]? := by
  induction members generalizing map with
  | nil => rfl
  | cons member members ih =>
    rw [List.foldl_cons, ih, lastValue?_cons, Std.TreeMap.getElem?_insert]
    cases lastValue? members name <;> by_cases h : member.1 = name <;> simp [h]

/-- The members that count are the last ones of their names. -/
theorem mem_finalMembers : (name, j) ∈ finalMembers members ↔ lastValue? members name = some j := by
  rw [finalMembers, Std.TreeMap.mem_toList_iff_getElem?_eq_some, getElem?_foldl_insert]
  simp

/-- The members that count come in the order of their names. -/
theorem pairwise_finalMembers (members : List (String × Json)) :
    (finalMembers members).Pairwise fun member other => member.1 < other.1 :=
  List.Pairwise.imp (R := fun member other => compare member.1 other.1 = .lt)
    (fun h => compareOfLessAndEq_eq_lt.mp h) Std.TreeMap.ordered_keys_toList

theorem allValues_iff : AllValues members ↔
    ∀ member ∈ finalMembers members, member.2.toValue?.isSome := by
  constructor
  · intro all ⟨name, j⟩ mem
    have last := mem_finalMembers.mp mem
    simpa [finalValue?, last] using all _ (mem_of_lastValue?_eq_some last)
  · intro all member mem
    obtain ⟨j, last⟩ := exists_lastValue?_of_mem mem
    simpa [finalValue?, last] using all _ (mem_finalMembers.mpr last)

/-! ## What reading gives -/

/-- A member that is no value fails with its complaint. -/
theorem ofMember_eq (name : String) (j : Json) : Value.ofMember name j =
    match j.toValue? with
    | some value => .ok value
    | none => .error (.json ("'" ++ name ++ "' " ++ j.complaint)) := by
  cases j <;> first | rfl | simp [Value.ofMember, toValue?, complaint, String.append_assoc]

theorem mapM_ofMember (members : List (String × Json)) :
    (members.mapM fun (name, j) => do Except.ok (name, ← Value.ofMember name j)) =
      match members.find? fun member => member.2.toValue?.isNone with
      | some (name, j) => .error (.json ("'" ++ name ++ "' " ++ j.complaint))
      | none => .ok (members.filterMap fun member => member.2.toValue?.map (member.1, ·)) := by
  induction members with
  | nil => rfl
  | cons member members ih =>
    obtain ⟨name, j⟩ := member
    rw [List.mapM_cons, ih]
    dsimp only
    rw [ofMember_eq]
    cases h : j.toValue? with
    | none => simp [h, bind, Except.bind]
    | some value =>
      simp [h, bind, Except.bind]
      cases members.find? fun member => member.2.toValue?.isNone <;> rfl

/-- The values of the members that count, in the order of their names. -/
def valueEntries (members : List (String × Json)) : List (String × Value) :=
  (finalMembers members).filterMap fun member => member.2.toValue?.map (member.1, ·)

theorem pairwise_valueEntries (members : List (String × Json)) :
    (valueEntries members).Pairwise fun entry other => entry.1 < other.1 := by
  refine List.pairwise_filterMap.mpr ((pairwise_finalMembers members).imp ?_)
  intro member other less entry hentry entry' hentry'
  obtain ⟨value, -, rfl⟩ := Option.map_eq_some_iff.mp hentry
  obtain ⟨value', -, rfl⟩ := Option.map_eq_some_iff.mp hentry'
  exact less

theorem nodup_valueEntries (members : List (String × Json)) :
    ((valueEntries members).map Prod.fst).Nodup :=
  List.pairwise_map.mpr ((pairwise_valueEntries members).imp String.ne_of_lt)

theorem lastValue?_valueEntries (members : List (String × Json)) (name : String) :
    lastValue? (valueEntries members) name = finalValue? members name := by
  ext value
  rw [lastValue?_eq_some_iff_mem (nodup_valueEntries members), valueEntries, List.mem_filterMap,
    finalValue?, Option.bind_eq_some_iff]
  constructor
  · rintro ⟨⟨other, j⟩, mem, h⟩
    obtain ⟨value', hvalue, same⟩ := Option.map_eq_some_iff.mp h
    cases same
    exact ⟨j, mem_finalMembers.mp mem, hvalue⟩
  · rintro ⟨j, last, hvalue⟩
    exact ⟨(name, j), mem_finalMembers.mpr last, by rw [hvalue, Option.map_some]⟩

/-- The name is the first one, in the order of names, that has no value at its last place. -/
structure FirstRefused (members : List (String × Json)) (name : String) (j : Json) : Prop where
  last : lastValue? members name = some j
  noValue : j.toValue? = none
  first : ∀ other k, lastValue? members other = some k → k.toValue? = none → name ≤ other

theorem readVariables_of_writes (explain : String → String)
    (writes : Writes text (.object members)) :
    readVariables explain text =
      match (finalMembers members).find? fun member => member.2.toValue?.isNone with
      | some (name, j) => .error (.json ("'" ++ name ++ "' " ++ j.complaint))
      | none => .ok (valueEntries members) := by
  rw [readVariables, ofString?_eq_some_iff.mpr writes]
  exact mapM_ofMember (finalMembers members)

/-- An object of values gives all of them. -/
theorem readVariables_of_allValues (explain : String → String)
    (writes : Writes text (.object members)) (all : AllValues members) :
    readVariables explain text = .ok (valueEntries members) := by
  have none : (finalMembers members).find? (fun member => member.2.toValue?.isNone) = none :=
    List.find?_eq_none.mpr fun member mem => by
      simpa [← Option.isSome_iff_ne_none] using allValues_iff.mp all member mem
  rw [readVariables_of_writes explain writes, none]

/-- An object with a member that counts and is no value is refused for the first such member. -/
theorem readVariables_of_not_allValues (explain : String → String)
    (writes : Writes text (.object members)) (refused : ¬AllValues members) :
    ∃ name j, FirstRefused members name j ∧
      readVariables explain text = .error (.json ("'" ++ name ++ "' " ++ j.complaint)) := by
  rw [readVariables_of_writes explain writes]
  cases found : (finalMembers members).find? fun member => member.2.toValue?.isNone with
  | none =>
    refine absurd (allValues_iff.mpr fun member mem => ?_) refused
    simpa [← Option.isSome_iff_ne_none] using List.find?_eq_none.mp found member mem
  | some member =>
    obtain ⟨noValue, before, after, split, values⟩ := List.find?_eq_some_iff_append.mp found
    have sorted := pairwise_finalMembers members
    rw [split] at sorted
    refine ⟨member.1, member.2, ⟨?_, by simpa using noValue, fun other k last noValue => ?_⟩, rfl⟩
    · rw [← mem_finalMembers, split]
      simp
    · have mem := mem_finalMembers.mpr last
      rw [split] at mem
      rcases List.mem_append.mp mem with mem | mem
      · simpa [noValue] using values _ mem
      · rcases List.mem_cons.mp mem with rfl | mem
        · exact String.le_refl _
        · have less := (List.pairwise_cons.mp (List.pairwise_append.mp sorted).2.1).1 _ mem
          exact Std.le_of_not_ge (String.not_le.mpr less)

/-- Variables are read from an object of values, and any other text is refused. -/
theorem readVariables_cases (explain : String → String) (text : String) :
    (∃ members, Writes text (.object members) ∧ AllValues members ∧
      readVariables explain text = .ok (valueEntries members)) ∨
    (¬∃ members, Writes text (.object members) ∧ AllValues members) ∧
      ∃ message, readVariables explain text = .error (.json message) := by
  by_cases given : ∃ members, Writes text (.object members) ∧ AllValues members
  · obtain ⟨members, writes, all⟩ := given
    exact .inl ⟨members, writes, all, readVariables_of_allValues explain writes all⟩
  · refine .inr ⟨given, ?_⟩
    unfold readVariables
    split
    · exact ⟨_, rfl⟩
    · next members found =>
      have writes := ofString?_eq_some_iff.mp found
      obtain ⟨name, j, -, h⟩ :=
        readVariables_of_not_allValues explain writes fun all => given ⟨members, writes, all⟩
      rw [readVariables, found] at h
      exact ⟨_, h⟩
    · exact ⟨_, rfl⟩

/-- The value that a text gives to a name, if it gives variables at all. -/
def givenValue? (text name : String) : Option Value :=
  match ofString? text with
  | some (.object members) => if AllValues members then finalValue? members name else none
  | _ => none

theorem givenValue?_of_readVariables_eq_ok {entries : List (String × Value)}
    (h : readVariables explain text = .ok entries) :
    givenValue? text name = lastValue? entries name := by
  rcases readVariables_cases explain text with ⟨members, writes, all, h'⟩ | ⟨-, message, h'⟩
  · cases h.symm.trans h'
    simp only [givenValue?, ofString?_eq_some_iff.mpr writes, if_pos all, lastValue?_valueEntries]
  · cases h.symm.trans h'

theorem givenValue?_of_readVariables_eq_error {e : Error}
    (h : readVariables explain text = .error e) : givenValue? text name = none := by
  unfold givenValue?
  split
  · next members found =>
    refine if_neg fun all => ?_
    have ok := readVariables_of_allValues explain (ofString?_eq_some_iff.mp found) all
    cases h.symm.trans ok
  · rfl

end Json

namespace Session

variable {σ : Type}

open Json

/-- Loading a text as JSON sets the variables that it gives and keeps all others, or else it is
refused and changes nothing. It is refused unless the text writes an object of values; the first
name whose value at its last place is none is the one that the error names. -/
theorem perform_loadJson (explain : String → String) (s : Session σ) (text : String) :
    ((s.perform explain (.loadJson text)).1 = .done ↔
      ∃ members, Writes text (.object members) ∧ AllValues members) ∧
    (∀ members, Writes text (.object members) → AllValues members →
      (∀ name, (s.perform explain (.loadJson text)).2.bindings.value? name =
        (finalValue? members name).or (s.bindings.value? name)) ∧
      (s.perform explain (.loadJson text)).2.bindings.functions = s.bindings.functions ∧
      (s.perform explain (.loadJson text)).2.limit = s.limit ∧
      (s.perform explain (.loadJson text)).2.host = s.host) ∧
    ((s.perform explain (.loadJson text)).1 ≠ .done → (s.perform explain (.loadJson text)).2 = s ∧
      ∃ message, (s.perform explain (.loadJson text)).1 = .failed (.json message)) ∧
    (∀ members, Writes text (.object members) → ¬AllValues members →
      ∃ name j, FirstRefused members name j ∧ (s.perform explain (.loadJson text)).1 =
        .failed (.json ("'" ++ name ++ "' " ++ j.complaint))) := by
  refine ⟨?_, fun members writes all => ?_, fun failed => ?_, fun members writes refused => ?_⟩
  · rcases readVariables_cases explain text with ⟨members, writes, all, h⟩ | ⟨none, message, h⟩
    · simp only [perform, h]
      exact iff_of_true trivial ⟨members, writes, all⟩
    · simp only [perform, h]
      exact iff_of_false Reply.noConfusion none
  · simp only [perform, readVariables_of_allValues explain writes all]
    refine ⟨fun name => ?_, by simp [modify], rfl, rfl⟩
    rw [← lastValue?_valueEntries]
    exact s.bindings.value?_setVariables_eq _ name
  · rcases readVariables_cases explain text with ⟨members, writes, all, h⟩ | ⟨-, message, h⟩
    · simp only [perform, h, ne_eq, not_true_eq_false] at failed
    · simp only [perform, h]
      exact ⟨trivial, message, rfl⟩
  · obtain ⟨name, j, first, h⟩ := readVariables_of_not_allValues explain writes refused
    exact ⟨name, j, first, by simp only [perform, h]⟩

/-- What `x` had before it had a number does not matter, and of `y` and `Y` the error names the
one that comes first in the order of names. -/
theorem perform_loadJson_repeatedNames :
    (((new 8 ()).perform id
      (.loadJson "\x7b\"x\":null,\"x\":2,\"y\":\"a\"\x7d")).2.bindings.value? "x" =
        some (.number 2)) ∧
    ((new 8 ()).perform id (.loadJson "\x7b\"x\":null,\"x\":2,\"y\":[1],\"Y\":null\x7d")).1 =
      .failed (.json "'Y' is null") := by
  constructor
  · have writes : Writes "\x7b\"x\":null,\"x\":2,\"y\":\"a\"\x7d"
        (.object [("x", .null), ("x", .number 2), ("y", .string "a")]) :=
      ofString?_eq_some_iff.mp (by with_unfolding_all rfl)
    exact ((perform_loadJson id (new 8 ()) _).2.1 _ writes (by decide)).1 "x"
  · have writes : Writes "\x7b\"x\":null,\"x\":2,\"y\":[1],\"Y\":null\x7d"
        (.object [("x", .null), ("x", .number 2), ("y", .array [.number 1]), ("Y", .null)]) :=
      ofString?_eq_some_iff.mp (by with_unfolding_all rfl)
    obtain ⟨name, j, first, refused⟩ :=
      (perform_loadJson id (new 8 ()) _).2.2.2 _ writes (by decide)
    have atMost : name ≤ "Y" := first.first "Y" .null rfl rfl
    have mem := mem_of_lastValue?_eq_some first.last
    simp only [List.mem_cons, Prod.mk.injEq, List.not_mem_nil, or_false] at mem
    rcases mem with ⟨rfl, rfl⟩ | ⟨rfl, rfl⟩ | ⟨rfl, rfl⟩ | ⟨rfl, rfl⟩
    · exact absurd atMost (by decide)
    · exact absurd atMost (by decide)
    · exact absurd atMost (by decide)
    · exact refused

end Session

end SheetFormula
