import Mathlib.Data.List.Chain
import SheetFormula.Proofs.Lexer.Places

/-!
# Lexemes without gaps

Most symbols need no blank characters around them: a symbol that is no comparison ends whatever
stands before it and takes nothing of what comes after it. So lexemes are read as they are when
they are written one right after another, if of any two neighbours one is such a symbol
(`tokenize_joined`).

The condition on neighbours is a chain (`Lexeme.Joinable`), so a list of lexemes is built up from
shorter ones with a separator between them (`Lexeme.Joinable.between`), as texts are. Its first
lexeme is then complete before the others (`Lexeme.Joinable.complete`): if it is the separator
itself by `Lexeme.complete_of_isSeparator`, and if its neighbour is by
`Lexeme.WellFormed.complete_before_separator`.

Names in a row with a symbol between two of them are the case that sums and argument lists are made
of (`Lexeme.joinable_listed`).
-/

namespace SheetFormula

open Unicode (isAlphabetic isBlank isNumeric)

namespace Lexeme

/-- Whether the lexeme is a symbol other than a comparison. -/
def isSeparator : Lexeme → Bool
  | .symbol s => s ∉ [.equal, .less, .greater, .lessEqual, .greaterEqual]
  | _ => false

/-- Lexemes written one right after another. -/
def joined (lexemes : List Lexeme) : List Char :=
  lexemes.flatMap fun lexeme => lexeme.text.toList

/-- All lexemes can be written, and of any two neighbours one is a separator. -/
structure Joinable (lexemes : List Lexeme) : Prop where
  wellFormed : ∀ l ∈ lexemes, l.WellFormed
  apart : lexemes.IsChain fun lexeme next => lexeme.isSeparator = true ∨ next.isSeparator = true

variable {lexeme next : Lexeme} {others : List Lexeme} {rest : List Char}

/-- A separator takes nothing of what comes after it. -/
theorem complete_of_isSeparator (separator : lexeme.isSeparator = true) :
    lexeme.Complete rest := by
  cases lexeme with
  | symbol s => cases s <;> simp [isSeparator, Complete] at separator ⊢
  | _ => cases separator

/-- A separator is one character, which belongs to no number, name or comparison. -/
theorem exists_text_of_isSeparator (separator : next.isSeparator = true) :
    ∃ c, next.text.toList = [c] ∧ isAlphabetic c = false ∧ isNumeric c = false ∧
      isComparisonSign c = false ∧ c ≠ ',' := by
  cases next with
  | symbol s =>
    cases s with
    | equal | less | greater | lessEqual | greaterEqual => cases separator
    | _ => exact ⟨_, rfl, by decide, by decide, by decide, by decide⟩
  | _ => cases separator

/-- A separator ends what stands before it. -/
theorem WellFormed.complete_before_separator (wellFormed : lexeme.WellFormed)
    (separator : next.isSeparator = true) (rest : List Char) :
    lexeme.Complete (next.text.toList ++ rest) := by
  obtain ⟨c, text, notAlphabetic, notNumeric, notSign, notComma⟩ :=
    exists_text_of_isSeparator separator
  have ends {p : Char → Bool} (h : p c = false) : EndsRun p (next.text.toList ++ rest) := by
    simpa [text, EndsRun] using h
  cases lexeme with
  | endOfInput => exact wellFormed.elim
  | symbol s => exact fun _ => ends notSign
  | number text => exact ⟨ends notNumeric, .inr (ends (beq_eq_false_iff_ne.mpr notComma))⟩
  | string text => trivial
  | identifier name => exact ends (by simp [notAlphabetic, notNumeric])

namespace Joinable

variable {before after : List Lexeme}

/-- Nothing of the later lexemes belongs to the first one. -/
theorem complete (h : Joinable (lexeme :: others)) : lexeme.Complete (joined others) := by
  have wellFormed : lexeme.WellFormed := h.wellFormed lexeme List.mem_cons_self
  cases others with
  | nil => exact wellFormed.complete (by simp [joined, Separated])
  | cons next others =>
    rcases (List.isChain_cons_cons.mp h.apart).1 with here | there
    · exact complete_of_isSeparator here
    · exact wellFormed.complete_before_separator there (joined others)

theorem tail (h : Joinable (lexeme :: others)) : Joinable others :=
  ⟨fun l mem => h.wellFormed l (List.mem_cons_of_mem _ mem), h.apart.tail⟩

theorem nil : Joinable [] :=
  ⟨by simp, .nil⟩

theorem singleton (wellFormed : lexeme.WellFormed) : Joinable [lexeme] :=
  ⟨by simpa using wellFormed, .singleton lexeme⟩

/-- A separator may stand between lexemes of any kind. -/
theorem between {s : Symbol} (hbefore : Joinable before)
    (separator : (Lexeme.symbol s).isSeparator = true) (hafter : Joinable after) :
    Joinable (before ++ .symbol s :: after) := by
  constructor
  · intro l mem
    rcases List.mem_append.mp mem with mem | mem
    · exact hbefore.wellFormed l mem
    · rcases List.mem_cons.mp mem with rfl | mem
      · trivial
      · exact hafter.wellFormed l mem
  · refine List.isChain_append.mpr ⟨hbefore.apart, ?_, ?_⟩
    · exact List.isChain_cons.mpr ⟨fun _ _ => .inl separator, hafter.apart⟩
    · intro last _ next mem
      obtain rfl : Lexeme.symbol s = next := by simpa using mem
      exact .inr separator

end Joinable

/-! ## Names in a row -/

/-- Names with a symbol between two of them. -/
def listed (s : Symbol) (first : String) (others : List String) : List Lexeme :=
  .identifier first :: others.flatMap fun name => [.symbol s, .identifier name]

theorem joinable_listed {s : Symbol} (separator : (Lexeme.symbol s).isSeparator = true) :
    ∀ {first : String} {others : List String},
      (∀ name ∈ first :: others, (Lexeme.identifier name).WellFormed) →
      Joinable (listed s first others)
  | first, [], wellFormed => .singleton (wellFormed first List.mem_cons_self)
  | first, next :: others, wellFormed => by
    have here := Joinable.singleton (wellFormed first List.mem_cons_self)
    exact here.between separator (joinable_listed separator fun name mem =>
      wellFormed name (List.mem_cons_of_mem _ mem))

theorem toList_intercalate_names (s : Symbol) : ∀ (first : String) (others : List String),
    (s.text.intercalate (first :: others)).toList = joined (listed s first others)
  | first, [] => by simp [joined, listed, text]
  | first, next :: others => by
    have rest := toList_intercalate_names s next others
    simp only [String.intercalate_cons_cons, String.toList_append, rest]
    simp [joined, listed, text]

end Lexeme

open Lexeme

/-- Lexemes that can be joined make up a text without gaps. -/
theorem tokenized_joined : ∀ {lexemes : List Lexeme} (offset : Nat), Joinable lexemes →
    Tokenized offset (joined lexemes) (place offset (lexemes.map ([], ·)) ++
      [Token.ending (offset + (joined lexemes).length + 1)])
  | [], offset, _ => .ending fun _ mem => absurd mem List.not_mem_nil
  | lexeme :: others, offset, joinable => by
    have noGap : ∀ c ∈ ([] : List Char), isBlank c = true := by simp
    have here : lexeme.Written lexeme.text.toList (joined others) :=
      ⟨joinable.wellFormed lexeme List.mem_cons_self, joinable.complete, .inl rfl⟩
    have rest := tokenized_joined (offset + lexeme.text.toList.length) joinable.tail
    have whole := Tokenized.token noGap here rest
    simpa [joined, place, Nat.add_assoc] using whole

/-- Joined lexemes are read as they are. -/
theorem tokenize_joined {text : String} {lexemes : List Lexeme} (joinable : Joinable lexemes)
    (spelled : text.toList = joined lexemes) :
    ∃ ts : List Token, tokenize text = .ok (ts ++ [Token.ending (text.length + 1)]) ∧
      ts.map Token.lexeme = lexemes := by
  refine ⟨place 0 (lexemes.map ([], ·)), ?_, ?_⟩
  · have tokenized := tokenized_joined 0 joinable
    rwa [← spelled, String.length_toList, Nat.zero_add, ← tokenize_eq_ok_iff] at tokenized
  · rw [map_lexeme_place, List.map_map]
    exact List.map_id lexemes

end SheetFormula
