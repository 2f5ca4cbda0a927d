/-!
# Strings in JSON

A string stands between double quotes, with a backslash before characters that cannot stand for
themselves. Reading takes every escape of the format: the eight short ones, and code units in four
hexadecimal digits, of which two in a row may make up one character. A half that stands alone is
refused, and so is a control character that is not escaped. Writing uses an escape only where one
is needed, and a short one where there is one.

Reading goes on behind each character or escape (`readString?`), and comes to an end because an
escape leaves less text than there was (`length_lt_of_readEscape?`).

`quote` writes a string and `readString?` reads it back: see `SheetFormula.Proofs.Json.Strings`,
where reading is also brought to a relation that says what the characters of a string may be
written as.
-/

namespace SheetFormula.Json

/-- The character that a letter stands for after a backslash. -/
def shortEscape? : Char → Option Char
  | '"' => some '"'
  | '\\' => some '\\'
  | '/' => some '/'
  | 'b' => some '\x08'
  | 'f' => some '\x0c'
  | 'n' => some '\n'
  | 'r' => some '\r'
  | 't' => some '\t'
  | _ => none

/-- The value of a hexadecimal digit. -/
def hexDigit? (c : Char) : Option Nat :=
  if '0' ≤ c ∧ c ≤ '9' then some (c.toNat - '0'.toNat)
  else if 'a' ≤ c ∧ c ≤ 'f' then some (c.toNat - 'a'.toNat + 10)
  else if 'A' ≤ c ∧ c ≤ 'F' then some (c.toNat - 'A'.toNat + 10)
  else none

/-- The code unit that four hexadecimal digits write. -/
def codeUnit? (a b c d : Char) : Option Nat := do
  some (4096 * (← hexDigit? a) + 256 * (← hexDigit? b) + 16 * (← hexDigit? c) + (← hexDigit? d))

/-- Whether a code unit is the first half of a character. -/
def isHighHalf (n : Nat) : Bool :=
  0xD800 ≤ n && n < 0xDC00

/-- Whether a code unit is the second half of a character. -/
def isLowHalf (n : Nat) : Bool :=
  0xDC00 ≤ n && n < 0xE000

/-- The character written in two halves. -/
def joinHalves (high low : Nat) : Char :=
  Char.ofNat (0x10000 + 0x400 * (high - 0xD800) + (low - 0xDC00))

/-- The second half of a character at the beginning of a text, and what follows it. -/
def lowHalf? : List Char → Option (Nat × List Char)
  | '\\' :: 'u' :: a :: b :: c :: d :: rest => do
    let low ← codeUnit? a b c d
    if isLowHalf low then some (low, rest) else none
  | _ => none

/-- The character that is written after a backslash, and what follows it. A half of a character
that stands alone is refused. -/
def readEscape? : List Char → Option (Char × List Char)
  | 'u' :: a :: b :: c :: d :: rest => do
    let n ← codeUnit? a b c d
    if isLowHalf n then none
    else if isHighHalf n then
      let (low, rest) ← lowHalf? rest
      some (joinHalves n low, rest)
    else some (Char.ofNat n, rest)
  | c :: rest => (shortEscape? c).map fun d => (d, rest)
  | [] => none

theorem length_le_of_lowHalf? {text rest : List Char} {low : Nat}
    (h : lowHalf? text = some (low, rest)) : rest.length ≤ text.length := by
  unfold lowHalf? at h
  split at h
  · obtain ⟨n, -, h⟩ := Option.bind_eq_some_iff.mp h
    split at h <;> simp only [Option.some.injEq, Prod.mk.injEq, reduceCtorEq] at h
    simp only [← h.2, List.length_cons]
    omega
  · simp at h

/-- Reading an escape leaves less text. -/
theorem length_lt_of_readEscape? {text rest : List Char} {c : Char}
    (h : readEscape? text = some (c, rest)) : rest.length < text.length := by
  unfold readEscape? at h
  split at h
  · obtain ⟨n, -, h⟩ := Option.bind_eq_some_iff.mp h
    split at h
    · simp at h
    · split at h
      · obtain ⟨⟨low, after⟩, half, h⟩ := Option.bind_eq_some_iff.mp h
        have := length_le_of_lowHalf? half
        simp only [Option.some.injEq, Prod.mk.injEq] at h
        simp only [← h.2, List.length_cons]
        omega
      · simp only [Option.some.injEq, Prod.mk.injEq] at h
        simp only [← h.2, List.length_cons]
        omega
  · obtain ⟨d, -, h⟩ := Option.map_eq_some_iff.mp h
    simp only [Prod.mk.injEq] at h
    simp [← h.2]
  · simp at h

/-- Read a string from behind its opening quote, with the characters in `found` before it, which
come last first, and give what follows its closing quote. Control characters must be escaped. -/
def readString? (found : List Char) (text : List Char) : Option (String × List Char) :=
  match text with
  | [] => none
  | '"' :: rest => some (String.ofList found.reverse, rest)
  | '\\' :: rest =>
    match _ : readEscape? rest with
    | some (c, after) => readString? (c :: found) after
    | none => none
  | c :: rest => if c.toNat < 0x20 then none else readString? (c :: found) rest
termination_by text.length
decreasing_by
  · have := length_lt_of_readEscape? ‹_›
    simp only [List.length_cons]
    omega
  · simp only [List.length_cons]
    omega

/-- Reading a string leaves less text. -/
theorem length_lt_of_readString? {found text rest : List Char} {s : String}
    (h : readString? found text = some (s, rest)) : rest.length < text.length := by
  fun_induction readString? found text with
  | case1 => simp at h
  | case2 found after =>
    simp only [Option.some.injEq, Prod.mk.injEq] at h
    simp [← h.2]
  | case3 found after c others escape ih =>
    have := length_lt_of_readEscape? escape
    have := ih h
    simp only [List.length_cons]
    omega
  | case4 => simp at h
  | case5 => simp at h
  | case6 found c after _ _ _ ih =>
    have := ih h
    simp only [List.length_cons]
    omega

/-- A hexadecimal digit. -/
def hexDigit (n : Nat) : Char :=
  if n < 10 then Char.ofNat ('0'.toNat + n) else Char.ofNat ('a'.toNat + (n - 10))

/-- A character as it is written within a string. -/
def escape (c : Char) : List Char :=
  match c with
  | '"' => ['\\', '"']
  | '\\' => ['\\', '\\']
  | '\x08' => ['\\', 'b']
  | '\x0c' => ['\\', 'f']
  | '\n' => ['\\', 'n']
  | '\r' => ['\\', 'r']
  | '\t' => ['\\', 't']
  | c =>
    if c.toNat < 0x20 then
      ['\\', 'u', '0', '0', hexDigit (c.toNat / 16), hexDigit (c.toNat % 16)]
    else [c]

/-- A string as it is written. -/
def quote (s : String) : String :=
  String.ofList ('"' :: s.toList.flatMap escape ++ ['"'])

end SheetFormula.Json
