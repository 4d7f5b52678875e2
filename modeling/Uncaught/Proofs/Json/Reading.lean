import Uncaught.Proofs.Json.Text

/-
  Reading single values from a text: words, texts and integers
  are read back from what is written of them, whatever follows.

  Key definitions include:
    * `Json.Ends`
    * `Json.Blank`
    * `Json.Reads`

  Main declarations:
    * `Json.reads_word`
    * `Json.reads_str`
    * `Json.number_toDigits`
    * `Json.reads_int`
-/

namespace Uncaught

namespace Json

open Printer Reader

variable {rest : List Char}

------------------------------------------------------------
-- Ends And Blanks
------------------------------------------------------------

/- What follows does not go on with a number. -/
def Ends
    (rest : List Char) : Prop :=
  ∀ c ∈ rest.head?,
    c.isDigit = false ∧ c ≠ '.' ∧ c ≠ 'e' ∧ c ≠ 'E'

theorem ends_nil :
    Ends [] := by
  intro c hc
  cases hc

theorem ends_cons
    {c : Char}
    (hChar :
      c.isDigit = false ∧ c ≠ '.' ∧ c ≠ 'e' ∧ c ≠ 'E') :
    Ends (c :: rest) := by
  intro d hd
  cases hd
  exact hChar

/- Only blanks. -/
def Blank
    (cs : List Char) : Prop :=
  ∀ c ∈ cs, isSpace c = true

theorem skip_append
    {blanks : List Char}
    (hBlank : Blank blanks) :
    skip (blanks ++ rest) = skip rest :=
  List.dropWhile_append_of_pos hBlank

theorem skip_cons
    {c : Char}
    (hChar : isSpace c = false) :
    skip (c :: rest) = c :: rest := by
  rw [skip, List.dropWhile_cons_of_neg (by simp [hChar])]

/- A number ends before blanks and a closing bracket. -/
theorem ends_append
    {blanks : List Char}
    (hBlank : Blank blanks)
    (hEnds : Ends rest) :
    Ends (blanks ++ rest) := by
  cases blanks with
  | nil => exact hEnds
  | cons c blanks =>
      have hSpace := hBlank c List.mem_cons_self
      simp only [isSpace, Bool.or_eq_true, beq_iff_eq] at hSpace
      apply ends_cons
      rcases hSpace with ((rfl | rfl) | rfl) | rfl <;> decide

theorem blank_newLine
    (depth : Nat) :
    Blank (newLine depth) := by
  intro c hc
  rcases List.mem_cons.mp hc with rfl | hSpace
  · rfl
  · rw [List.eq_of_mem_replicate hSpace]
    rfl

theorem blank_nil :
    Blank [] := by
  intro c hc
  cases hc

------------------------------------------------------------
-- Values
------------------------------------------------------------

/-
  A text that is read as a value, whatever follows, as long as
  a number would end there. It begins with neither a blank nor
  the end of an array.
-/
structure Reads
    (cs : List Char)
    (v : Json) : Prop where
  opens :
    ∃ c tail, cs = c :: tail ∧ isSpace c = false ∧ c ≠ ']'
  value_append :
    ∀ fuel rest, cs.length ≤ fuel → Ends rest →
      value fuel (cs ++ rest) = some (v, rest)

/- To be read, a text needs one step of fuel and what it reads. -/
theorem Reads.of_cons
    {c : Char}
    {tail : List Char}
    {v : Json}
    (hSpace : isSpace c = false)
    (hClosing : c ≠ ']')
    (hValue :
      ∀ fuel rest, tail.length ≤ fuel → Ends rest →
        value (fuel + 1) (c :: (tail ++ rest)) =
          some (v, rest)) :
    Reads (c :: tail) v where
  opens := ⟨c, tail, rfl, hSpace, hClosing⟩
  value_append := by
    intro fuel rest hFuel hEnds
    cases fuel with
    | zero => cases hFuel
    | succ fuel =>
        exact hValue fuel rest (Nat.le_of_succ_le_succ hFuel)
          hEnds

/- A word is read by its first letter. -/
theorem reads_word
    {w : String}
    {v : Json}
    {c : Char}
    {tail : List Char}
    (hWord : w.toList = c :: tail)
    (hSpace : isSpace c = false)
    (hClosing : c ≠ ']')
    (hValue :
      ∀ fuel cs,
        value (fuel + 1) (c :: cs) = word w v (c :: cs)) :
    Reads w.toList v := by
  rw [hWord]
  apply Reads.of_cons hSpace hClosing
  intro fuel rest _ _
  rw [hValue, word, ← List.cons_append, hWord, if_pos,
    List.drop_left]
  rw [List.isPrefixOf_iff_prefix]
  exact List.prefix_append _ _

theorem reads_null :
    Reads "null".toList null :=
  reads_word rfl rfl (by decide) fun _ _ => rfl

theorem reads_true :
    Reads "true".toList (bool true) :=
  reads_word rfl rfl (by decide) fun _ _ => rfl

theorem reads_false :
    Reads "false".toList (bool false) :=
  reads_word rfl rfl (by decide) fun _ _ => rfl

theorem reads_str
    {char : Char → List Char}
    (hFaithful : Faithful char)
    (s : String) :
    Reads (quote char s) (str s) := by
  rw [quote, List.cons_append]
  apply Reads.of_cons (by decide) (by decide)
  intro fuel rest _ _
  rw [List.append_assoc, List.singleton_append]
  change (string _ >>= fun read =>
    some (str read.1, read.2)) = _
  rw [string_quoted hFaithful]
  rfl

------------------------------------------------------------
-- Numbers
------------------------------------------------------------

/-
  The digits of a number: the first one is a zero only if the
  number is.
-/
theorem exists_toDigits_eq_cons
    (n : Nat) :
    ∃ c tail, Nat.toDigits 10 n = c :: tail ∧
      c.isDigit = true ∧ (c = '0' → n = 0) := by
  induction n using Nat.strongRecOn with
  | ind n ih =>
      by_cases hDigit : n < 10
      · have hAll :
            ∀ n : Fin 10, n.val.digitChar.isDigit = true ∧
              (n.val.digitChar = '0' → n.val = 0) := by
          decide
        rw [Nat.toDigits_of_lt_base hDigit]
        exact ⟨_, [], rfl, hAll ⟨n, hDigit⟩⟩
      · rcases ih (n / 10) (by omega) with
          ⟨c, tail, hDigits, hFirst, hZero⟩
        rw [Nat.toDigits_eq_if (by decide), if_neg hDigit,
          hDigits]
        refine ⟨c, _, rfl, hFirst, ?_⟩
        intro hc
        have := hZero hc
        omega

theorem ofDigits_toDigits
    (n : Nat) :
    ofDigits (Nat.toDigits 10 n) = n := by
  have hDigits :
      Nat.ofDigitChars 10 (Nat.toDigits 10 n) 0 = n :=
    Nat.ofDigitChars_toDigits (by decide) (by decide)
  rw [Nat.ofDigitChars_eq_foldl] at hDigits
  simp only [Nat.mul_comm 10] at hDigits
  exact hDigits

/- All digits of a number are taken, and no more. -/
theorem digits_toDigits
    (n : Nat)
    (hEnds : Ends rest) :
    digits (Nat.toDigits 10 n ++ rest) =
      some (Nat.toDigits 10 n, rest) := by
  have hNone : rest.takeWhile Char.isDigit = [] := by
    cases rest with
    | nil => rfl
    | cons c rest =>
        rw [List.takeWhile_cons_of_neg]
        rw [(hEnds c rfl).1]
        decide
  have hAll :
      (Nat.toDigits 10 n ++ rest).takeWhile Char.isDigit =
        Nat.toDigits 10 n := by
    rw [List.takeWhile_append_of_pos, hNone, List.append_nil]
    intro c hc
    exact Nat.isDigit_of_mem_toDigits (by decide) (by decide) hc
  rcases exists_toDigits_eq_cons n with ⟨c, tail, hCons, -⟩
  rw [digits, hAll, hCons]
  simp only [List.drop_left]

theorem whole_toDigits
    (n : Nat)
    (hEnds : Ends rest) :
    whole (Nat.toDigits 10 n ++ rest) = some (n, rest) := by
  rcases exists_toDigits_eq_cons n with
    ⟨c, tail, hCons, -, hZero⟩
  by_cases hFirst : c = '0'
  · rw [hZero hFirst]
    rfl
  · have hDigits := digits_toDigits n hEnds
    rw [hCons, List.cons_append] at hDigits ⊢
    rw [whole, hDigits]
    · rw [← hCons]
      simp [ofDigits_toDigits]
    · rintro _ hSame
      cases hSame
      exact hFirst rfl

/- An integer is read where nothing goes on with it. -/
theorem number_toDigits
    (negative : Bool)
    (n : Nat)
    (hEnds : Ends rest) :
    number negative (Nat.toDigits 10 n ++ rest) =
      some (int (if negative then -(n : Int) else n), rest) := by
  have hFraction : fraction? rest = none := by
    cases rest with
    | nil => rfl
    | cons c rest =>
        rw [fraction?]
        rintro _ hSame
        cases hSame
        exact (hEnds _ rfl).2.1 rfl
  have hPower : power? rest = none := by
    cases rest with
    | nil => rfl
    | cons c rest =>
        have hChar := (hEnds c rfl).2.2
        simp [power?, hChar]
  rw [number, whole_toDigits n hEnds]
  simp [hFraction, hPower]

/- A digit opens a number. -/
theorem value_of_isDigit
    {c : Char}
    {cs : List Char}
    (hDigit : c.isDigit = true)
    (fuel : Nat) :
    value (fuel + 1) (c :: cs) = number false (c :: cs) := by
  rw [value]
  -- every other case begins with a character that is no digit
  all_goals
    rintro _ hSame
    cases hSame
    exact absurd hDigit (by decide)

/- A digit after a minus opens a negative number. -/
theorem value_minus_of_isDigit
    {c : Char}
    {cs : List Char}
    (hDigit : c.isDigit = true)
    (fuel : Nat) :
    value (fuel + 1) ('-' :: c :: cs) =
      number true (c :: cs) := by
  rw [value]
  rintro _ hSame
  cases hSame
  exact absurd hDigit (by decide)

theorem reads_int
    (n : Int) :
    Reads (decimal n) (int n) := by
  cases n with
  | ofNat n =>
      rcases exists_toDigits_eq_cons n with
        ⟨c, tail, hCons, hDigit, -⟩
      have hSpace : isSpace c = false := by
        rw [Bool.eq_false_iff]
        intro hSpace
        simp only [isSpace, Bool.or_eq_true,
          beq_iff_eq] at hSpace
        rcases hSpace with ((rfl | rfl) | rfl) | rfl <;>
          exact absurd hDigit (by decide)
      have hClosing : c ≠ ']' := by
        rintro rfl
        exact absurd hDigit (by decide)
      rw [decimal, hCons]
      apply Reads.of_cons hSpace hClosing
      intro fuel rest _ hEnds
      have hNumber := number_toDigits false n hEnds
      rw [hCons, List.cons_append] at hNumber
      rw [value_of_isDigit hDigit, hNumber]
      rfl
  | negSucc n =>
      rcases exists_toDigits_eq_cons (n + 1) with
        ⟨c, tail, hCons, hDigit, -⟩
      rw [decimal]
      apply Reads.of_cons (by decide) (by decide)
      intro fuel rest _ hEnds
      have hNumber := number_toDigits true (n + 1) hEnds
      rw [hCons, List.cons_append] at hNumber ⊢
      rw [value_minus_of_isDigit hDigit, hNumber]
      rfl

end Json

end Uncaught
