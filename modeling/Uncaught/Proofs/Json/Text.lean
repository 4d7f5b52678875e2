import Uncaught.Json.Printer
import Uncaught.Json.Reader

/-
  Texts in JSON: what is written between quotes is read back,
  whichever characters the text has.

  Key definitions include:
    * `Json.Faithful`

  Main declarations:
    * `Json.unit_hex`
    * `Json.faithful_asciiChar`
    * `Json.faithful_plainChar`
    * `Json.string_quoted`
-/

namespace Uncaught

namespace Json

open Printer Reader

variable {rest : List Char} {fuel : Nat}

------------------------------------------------------------
-- Code Units
------------------------------------------------------------

/- A hexadecimal digit has its value. -/
theorem hexValue?_hexDigit
    {n : Nat}
    (hDigit : n < 16) :
    hexValue? (Text.hexDigit n) = some n := by
  have hAll :
      ∀ n : Fin 16, hexValue? (Text.hexDigit n) = some n.val :=
    by decide
  exact hAll ⟨n, hDigit⟩

/- Four hexadecimal digits have the value of the code unit. -/
theorem unit_hex
    {n : Nat}
    (hUnit : n < 0x10000) :
    unit (Text.hex 4 n ++ rest) = some (n, rest) := by
  have hDigits :
      ∀ m, hexValue? (Text.hexDigit (m % 16)) =
        some (m % 16) := by
    intro m
    exact hexValue?_hexDigit (Nat.mod_lt m (by decide))
  simp only [Text.hex, List.nil_append, List.cons_append, unit,
    hDigits, Option.bind_eq_bind, Option.bind_some,
    Option.some.injEq, Prod.mk.injEq, and_true]
  omega

/- No character is half of a pair. -/
theorem isHigh_isLow_toNat_eq_false
    (c : Char) :
    isHigh c.toNat = false ∧ isLow c.toNat = false := by
  have hValid : c.toNat.isValidChar := c.valid
  unfold Nat.isValidChar at hValid
  simp only [isHigh, isLow, Bool.and_eq_false_iff,
    decide_eq_false_iff_not]
  omega

/- A character of one code unit is read back. -/
theorem escape_unit
    (c : Char)
    (hUnit : c.toNat < 0x10000) :
    escape ('u' :: (Text.hex 4 c.toNat ++ rest)) =
      some (c, rest) := by
  rcases isHigh_isLow_toNat_eq_false c with ⟨hHigh, hLow⟩
  rw [escape, unit_hex hUnit]
  simp only [Option.bind_eq_bind, Option.bind_some, ofUnit,
    hHigh, hLow, Bool.or_self, Bool.false_eq_true, if_false,
    Char.ofNat_toNat]

/- Two code units that make a pair are read as one. -/
theorem escape_pair
    {high low : Nat}
    (hHigh : isHigh high = true)
    (hLow : isLow low = true) :
    escape ('u' :: (Text.hex 4 high ++
      (unitEscape low ++ rest))) =
      some (Char.ofNat (0x10000 + (high - 0xD800) * 1024
        + (low - 0xDC00)), rest) := by
  have hHighUnit : high < 0x10000 := by
    simp only [isHigh, Bool.and_eq_true,
      decide_eq_true_eq] at hHigh
    omega
  have hLowUnit : low < 0x10000 := by
    simp only [isLow, Bool.and_eq_true,
      decide_eq_true_eq] at hLow
    omega
  rw [escape, unit_hex hHighUnit]
  simp only [Option.bind_eq_bind, Option.bind_some, hHigh,
    if_true, unitEscape, List.cons_append]
  rw [unit_hex hLowUnit]
  simp only [hLow, if_true]

/- A character above the single code units makes a pair. -/
theorem escape_pair_toNat
    (c : Char)
    (hPair : 0x10000 ≤ c.toNat) :
    escape ('u' ::
      (Text.hex 4 (0xD800 + (c.toNat - 0x10000) / 1024) ++
        (unitEscape (0xDC00 + (c.toNat - 0x10000) % 1024) ++
          rest))) =
      some (c, rest) := by
  have hValid : c.toNat.isValidChar := c.valid
  unfold Nat.isValidChar at hValid
  rw [escape_pair]
  · have hValue :
        0x10000
          + (0xD800 + (c.toNat - 0x10000) / 1024 - 0xD800)
            * 1024
          + (0xDC00 + (c.toNat - 0x10000) % 1024 - 0xDC00) =
        c.toNat := by
      omega
    rw [hValue, Char.ofNat_toNat]
  · simp only [isHigh, Bool.and_eq_true, decide_eq_true_eq]
    omega
  · simp only [isLow, Bool.and_eq_true, decide_eq_true_eq]
    omega

------------------------------------------------------------
-- Characters
------------------------------------------------------------

/-
  A way of writing characters that can be read: whatever
  follows, the reader takes the character off.
-/
structure Faithful
    (char : Char → List Char) : Prop where
  ne_nil : ∀ c, char c ≠ []
  chars_append :
    ∀ c fuel rest,
      chars (fuel + 1) (char c ++ rest) =
        (chars fuel rest).map fun read => (c :: read.1, read.2)

/- After a backslash an escape is read. -/
theorem chars_escape
    {c : Char}
    {cs : List Char}
    (hEscape : escape cs = some (c, rest)) :
    chars (fuel + 1) ('\\' :: cs) =
      (chars fuel rest).map fun read =>
        (c :: read.1, read.2) := by
  rw [chars, hEscape]
  simp only [Option.bind_eq_bind, Option.bind_some]
  cases chars fuel rest <;> rfl

/- A character that needs no escape stands for itself. -/
theorem chars_plain
    {c : Char}
    (hQuote : c ≠ '"')
    (hBackslash : c ≠ '\\')
    (hControl : 0x20 ≤ c.toNat) :
    chars (fuel + 1) (c :: rest) =
      (chars fuel rest).map fun read =>
        (c :: read.1, read.2) := by
  rw [chars]
  · rw [if_neg (by omega)]
    cases chars fuel rest <;> rfl
  · exact hQuote
  · exact hBackslash

theorem eq_of_toNat_eq
    {c d : Char}
    (hSame : c.toNat = d.toNat) :
    c = d := by
  rw [← Char.ofNat_toNat c, hSame, Char.ofNat_toNat]

/- A short escape is a letter that stands for the character. -/
theorem escape?_of_shortEscape?
    {c : Char}
    {cs : List Char}
    (hShort : shortEscape? c = some cs) :
    ∃ letter, cs = ['\\', letter] ∧ letter ≠ 'u' ∧
      escape? letter = some c := by
  unfold shortEscape? at hShort
  simp only [beq_iff_eq] at hShort
  split at hShort
  · next hChar =>
      cases hShort
      exact ⟨'"', rfl, by decide, by rw [hChar]; rfl⟩
  split at hShort
  · next hChar =>
      cases hShort
      exact ⟨'\\', rfl, by decide, by rw [hChar]; rfl⟩
  split at hShort
  · next hChar =>
      cases hShort
      exact ⟨'n', rfl, by decide, by rw [hChar]; rfl⟩
  split at hShort
  · next hChar =>
      cases hShort
      exact ⟨'r', rfl, by decide, by rw [hChar]; rfl⟩
  split at hShort
  · next hChar =>
      cases hShort
      exact ⟨'t', rfl, by decide, by rw [hChar]; rfl⟩
  split at hShort
  · next hNumber =>
      cases hShort
      have hChar : c = Char.ofNat 8 := eq_of_toNat_eq hNumber
      exact ⟨'b', rfl, by decide, by rw [hChar]; rfl⟩
  split at hShort
  · next hNumber =>
      cases hShort
      have hChar : c = Char.ofNat 12 := eq_of_toNat_eq hNumber
      exact ⟨'f', rfl, by decide, by rw [hChar]; rfl⟩
  · cases hShort

/- Without a short escape a character ends nothing. -/
theorem ne_of_shortEscape?_eq_none
    {c : Char}
    (hNone : shortEscape? c = none) :
    c ≠ '"' ∧ c ≠ '\\' := by
  constructor <;> rintro rfl <;> cases hNone

theorem chars_shortEscape
    {c : Char}
    {cs : List Char}
    (hShort : shortEscape? c = some cs) :
    chars (fuel + 1) (cs ++ rest) =
      (chars fuel rest).map fun read =>
        (c :: read.1, read.2) := by
  rcases escape?_of_shortEscape? hShort with
    ⟨letter, rfl, hLetter, hEscape⟩
  have hRead : escape (letter :: rest) = some (c, rest) := by
    rw [escape, hEscape]
    · rfl
    · exact hLetter
  exact chars_escape hRead

/-
  Where some characters are written by their short escapes, it
  is enough that the others can be read.
-/
theorem faithful_of_shortEscape?
    {char : Char → List Char}
    (hShort :
      ∀ c cs, shortEscape? c = some cs → char c = cs)
    (hNil : ∀ c, shortEscape? c = none → char c ≠ [])
    (hOther :
      ∀ c fuel rest, shortEscape? c = none →
        chars (fuel + 1) (char c ++ rest) =
          (chars fuel rest).map fun read =>
            (c :: read.1, read.2)) :
    Faithful char where
  ne_nil := by
    intro c
    cases hEscape : shortEscape? c with
    | none => exact hNil c hEscape
    | some cs =>
        rw [hShort c cs hEscape]
        rcases escape?_of_shortEscape? hEscape with
          ⟨letter, rfl, -⟩
        exact List.cons_ne_nil _ _
  chars_append := by
    intro c fuel rest
    cases hEscape : shortEscape? c with
    | none => exact hOther c fuel rest hEscape
    | some cs =>
        rw [hShort c cs hEscape]
        exact chars_shortEscape hEscape

/- Every character can be written with ASCII characters. -/
theorem faithful_asciiChar :
    Faithful asciiChar := by
  apply faithful_of_shortEscape?
  · intro c cs hShort
    simp only [asciiChar, hShort]
  · intro c hNone
    simp only [asciiChar, hNone, unitEscape]
    split
    · exact List.cons_ne_nil _ _
    · split <;> exact List.cons_ne_nil _ _
  · intro c fuel rest hNone
    rcases ne_of_shortEscape?_eq_none hNone with
      ⟨hQuote, hBackslash⟩
    simp only [asciiChar, hNone, Bool.and_eq_true,
      decide_eq_true_eq]
    -- itself, one code unit, or a pair of them
    split
    · next hPlain =>
        exact chars_plain hQuote hBackslash hPlain.1
    · split
      · next hUnit =>
          exact chars_escape (escape_unit c hUnit)
      · next hPair =>
          rw [List.append_assoc]
          exact chars_escape
            (escape_pair_toNat c (Nat.le_of_not_lt hPair))

/- Every character can be written as it is or escaped. -/
theorem faithful_plainChar :
    Faithful plainChar := by
  apply faithful_of_shortEscape?
  · intro c cs hShort
    simp only [plainChar, hShort]
  · intro c hNone
    simp only [plainChar, hNone, unitEscape]
    split <;> exact List.cons_ne_nil _ _
  · intro c fuel rest hNone
    rcases ne_of_shortEscape?_eq_none hNone with
      ⟨hQuote, hBackslash⟩
    simp only [plainChar, hNone]
    split
    · next hControl =>
        exact chars_escape (escape_unit c (by omega))
    · next hPlain =>
        exact chars_plain hQuote hBackslash
          (Nat.le_of_not_lt hPlain)

------------------------------------------------------------
-- Texts
------------------------------------------------------------

variable {char : Char → List Char}

theorem length_le_length_flatMap
    (hFaithful : Faithful char)
    (text : List Char) :
    text.length ≤ (text.flatMap char).length := by
  induction text with
  | nil => exact Nat.le_refl 0
  | cons c text ih =>
      have hChar := List.length_pos_iff.mpr (hFaithful.ne_nil c)
      rw [List.flatMap_cons, List.length_append,
        List.length_cons]
      omega

/- The characters of a text are read up to the quote. -/
theorem chars_flatMap
    (hFaithful : Faithful char)
    (text : List Char)
    (hFuel : text.length < fuel) :
    chars fuel (text.flatMap char ++ '"' :: rest) =
      some (text, rest) := by
  induction text generalizing fuel with
  | nil =>
      cases fuel with
      | zero => cases hFuel
      | succ fuel => rfl
  | cons c text ih =>
      cases fuel with
      | zero => cases hFuel
      | succ fuel =>
          rw [List.flatMap_cons, List.append_assoc,
            hFaithful.chars_append,
            ih (Nat.lt_of_succ_lt_succ hFuel)]
          rfl

/- A text in quotes is read back after its opening quote. -/
theorem string_quoted
    (hFaithful : Faithful char)
    (s : String) :
    string (s.toList.flatMap char ++ '"' :: rest) =
      some (s, rest) := by
  have hLength := length_le_length_flatMap hFaithful s.toList
  rw [string, chars_flatMap hFaithful]
  · simp
  · rw [List.length_append]
    omega

end Json

end Uncaught
