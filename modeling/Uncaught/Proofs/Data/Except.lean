import Mathlib.Data.List.Perm.Basic

/-
  Laws of computations that can fail: what a computation gives
  when its parts do.

  Key definitions include:
    * `Succeeds`
    * `Agree`
    * `Settles`

  Main declarations:
    * `bind_eq_ok_iff`
    * `map_eq_ok_iff`
    * `mapError_eq_ok_iff`
    * `toOption_eq_some_iff`
    * `mapM_eq_pure`
    * `mapM_eq_ok`
    * `forall₂_of_mapM_eq_ok`
    * `exists_mapM_of_perm`
    * `foldlM_preserves`
    * `exists_foldlM`
    * `foldlM_eq_foldl_of`
    * `foldlM_eq_foldl`
    * `foldlM_eq_mapM`
    * `foldlM_map_eq`
    * `foldl_iff`
    * `foldl_or_eq`
    * `foldlM_iff`
    * `Succeeds.bind`
    * `Succeeds.mapM`
    * `Succeeds.foldlM`
    * `Agree.bind`
    * `Agree.mapM`
    * `Settles.bind`
    * `Settles.mapM`
-/

namespace Uncaught

variable {ε α β : Type}

/- A sequence gives what its second part gives. -/
theorem bind_eq_ok_iff
    {x : Except ε α}
    {f : α → Except ε β}
    {b : β} :
    (x >>= f) = .ok b ↔ ∃ a, x = .ok a ∧ f a = .ok b := by
  cases x with
  | error e => simp [bind, Except.bind]
  | ok a => simp [bind, Except.bind]

theorem map_eq_ok_iff
    {f : α → β}
    {x : Except ε α}
    {b : β} :
    x.map f = .ok b ↔ ∃ a, x = .ok a ∧ f a = b := by
  cases x with
  | error e => simp [Except.map]
  | ok a => simp [Except.map]

/- Another name for the errors leaves the results alone. -/
theorem mapError_eq_ok_iff
    {δ : Type}
    {f : ε → δ}
    {x : Except ε α}
    {a : α} :
    x.mapError f = .ok a ↔ x = .ok a := by
  cases x with
  | error e => simp [Except.mapError]
  | ok b => simp [Except.mapError]

theorem toOption_eq_some_iff
    {x : Except ε α}
    {a : α} :
    x.toOption = some a ↔ x = .ok a := by
  cases x with
  | error e => simp [Except.toOption]
  | ok b => simp [Except.toOption]

------------------------------------------------------------
-- Lists
------------------------------------------------------------

/- If each item just gives a result, so does the list. -/
theorem mapM_eq_pure
    {m : Type → Type}
    [Monad m]
    [LawfulMonad m]
    {f : α → m β}
    {g : α → β}
    {items : List α}
    (hItems : ∀ a ∈ items, f a = pure (g a)) :
    items.mapM f = pure (items.map g) := by
  induction items with
  | nil => rw [List.mapM_nil, List.map_nil]
  | cons a rest ih =>
      have hRest := ih fun b hb =>
        hItems b (List.mem_cons_of_mem _ hb)
      rw [List.mapM_cons, hItems a List.mem_cons_self,
        pure_bind, hRest, pure_bind, List.map_cons]

/- If each item gives a result, the list gives all of them. -/
theorem mapM_eq_ok
    {f : α → Except ε β}
    {g : α → β}
    {items : List α}
    (hItems : ∀ a ∈ items, f a = .ok (g a)) :
    items.mapM f = .ok (items.map g) :=
  mapM_eq_pure hItems

/- The results of a list are those of its items, in order. -/
theorem forall₂_of_mapM_eq_ok
    {f : α → Except ε β}
    {items : List α}
    {results : List β}
    (hResults : items.mapM f = .ok results) :
    List.Forall₂ (fun a b => f a = .ok b) items results := by
  induction items generalizing results with
  | nil =>
      have hEmpty : results = [] := by
        simpa [pure, Except.pure, eq_comm] using hResults
      subst hEmpty
      exact .nil
  | cons a rest ih =>
      rw [List.mapM_cons] at hResults
      rcases bind_eq_ok_iff.mp hResults with
        ⟨b, hHead, hTail⟩
      rcases bind_eq_ok_iff.mp hTail with
        ⟨bs, hRest, hCons⟩
      cases hCons
      exact .cons hHead (ih hRest)

theorem mapM_eq_ok_of_forall₂
    {f : α → Except ε β}
    {items : List α}
    {results : List β}
    (hResults :
      List.Forall₂ (fun a b => f a = .ok b) items results) :
    items.mapM f = .ok results := by
  induction hResults with
  | nil => rfl
  | cons hHead _ ih =>
      rw [List.mapM_cons, hHead, ih]
      rfl

/- Items in another order give their results in another order. -/
theorem exists_mapM_of_perm
    {f : α → Except ε β}
    {items others : List α}
    (hPerm : items.Perm others)
    {results : List β}
    (hResults : items.mapM f = .ok results) :
    ∃ results', others.mapM f = .ok results' ∧
      results.Perm results' := by
  rcases List.perm_comp_forall₂ hPerm.symm
      (forall₂_of_mapM_eq_ok hResults) with
    ⟨results', hOthers, hOrder⟩
  exact ⟨results', mapM_eq_ok_of_forall₂ hOthers, hOrder.symm⟩

/- A list whose members have matches has a related one. -/
theorem exists_forall₂
    {R : α → β → Prop}
    {items : List α}
    (hItems : ∀ a ∈ items, ∃ b, R a b) :
    ∃ results, List.Forall₂ R items results := by
  induction items with
  | nil => exact ⟨[], .nil⟩
  | cons a rest ih =>
      rcases hItems a List.mem_cons_self with ⟨b, hHead⟩
      rcases ih fun a ha =>
          hItems a (List.mem_cons_of_mem _ ha) with
        ⟨results, hRest⟩
      exact ⟨b :: results, .cons hHead hRest⟩

/- Matches along one list are matches along the other. -/
theorem exists_forall₂_along
    {γ δ : Type}
    {R : α → β → Prop}
    {S : α → γ → Prop}
    {R' : γ → δ → Prop}
    {S' : β → δ → Prop}
    {items : List α}
    {results : List β}
    {others : List γ}
    (hStep :
      ∀ a b c, R a b → S a c → ∃ d, R' c d ∧ S' b d)
    (hResults : List.Forall₂ R items results)
    (hOthers : List.Forall₂ S items others) :
    ∃ results', List.Forall₂ R' others results' ∧
      List.Forall₂ S' results results' := by
  induction hResults generalizing others with
  | nil =>
      cases hOthers
      exact ⟨[], .nil, .nil⟩
  | cons hHead _ ih =>
      cases hOthers with
      | cons hOther hRest =>
          rcases hStep _ _ _ hHead hOther with ⟨d, hR, hS⟩
          rcases ih hRest with ⟨results', hRight, hLeft⟩
          exact ⟨d :: results', .cons hR hRight,
            .cons hS hLeft⟩

/- Lists whose members are mapped alike are mapped alike. -/
theorem map_eq_map_of_forall₂
    {γ : Type}
    {f : α → γ}
    {g : β → γ}
    {items : List α}
    {others : List β}
    (hAll : List.Forall₂ (fun a b => f a = g b) items others) :
    items.map f = others.map g := by
  rwa [← List.forall₂_eq_eq_eq, List.forall₂_map_left_iff,
    List.forall₂_map_right_iff]

/- Each member of a list has its match in a related one. -/
theorem exists_of_mem_left
    {R : α → β → Prop}
    {items : List α}
    {results : List β}
    (hRelated : List.Forall₂ R items results)
    {a : α}
    (hMem : a ∈ items) :
    ∃ b ∈ results, R a b := by
  induction hRelated with
  | nil => simp at hMem
  | cons hHead _ ih =>
      rcases List.mem_cons.mp hMem with rfl | hRest
      · exact ⟨_, List.mem_cons_self, hHead⟩
      · rcases ih hRest with ⟨b, hb, hR⟩
        exact ⟨b, List.mem_cons_of_mem _ hb, hR⟩

theorem exists_of_mem_right
    {R : α → β → Prop}
    {items : List α}
    {results : List β}
    (hRelated : List.Forall₂ R items results)
    {b : β}
    (hMem : b ∈ results) :
    ∃ a ∈ items, R a b :=
  exists_of_mem_left hRelated.flip hMem

/- What each step keeps, a successful run keeps. -/
theorem foldlM_preserves
    {f : β → α → Except ε β}
    {P : β → Prop}
    {items : List α}
    {start final : β}
    (hStart : P start)
    (hStep :
      ∀ b, ∀ a ∈ items, ∀ b', P b → f b a = .ok b' → P b')
    (hRun : items.foldlM f start = .ok final) :
    P final := by
  induction items generalizing start with
  | nil =>
      cases hRun
      exact hStart
  | cons a rest ih =>
      rw [List.foldlM_cons] at hRun
      rcases bind_eq_ok_iff.mp hRun with
        ⟨middle, hHead, hRest⟩
      apply ih (hStep start a List.mem_cons_self middle hStart
        hHead)
      · intro b c hc
        exact hStep b c (List.mem_cons_of_mem _ hc)
      · exact hRest

/- A run whose steps all succeed in their turn succeeds. -/
theorem exists_foldlM
    {f : β → α → Except ε β}
    {P : β → Prop}
    {items : List α}
    {start : β}
    (hStart : P start)
    (hStep :
      ∀ b, ∀ a ∈ items, P b → ∃ b', f b a = .ok b' ∧ P b') :
    ∃ final, items.foldlM f start = .ok final ∧ P final := by
  induction items generalizing start with
  | nil => exact ⟨start, rfl, hStart⟩
  | cons a rest ih =>
      rcases hStep start a List.mem_cons_self hStart with
        ⟨middle, hHead, hMiddle⟩
      rcases ih hMiddle fun b c hc =>
          hStep b c (List.mem_cons_of_mem _ hc) with
        ⟨final, hRest, hFinal⟩
      refine ⟨final, ?_, hFinal⟩
      rw [List.foldlM_cons]
      exact bind_eq_ok_iff.mpr ⟨middle, hHead, hRest⟩

/-
  What is seen of a run is a run of what is seen, where each step
  keeps what it needs.
-/
theorem foldlM_eq_foldl_of
    {γ : Type}
    {f : β → α → Except ε β}
    {P : β → Prop}
    {V : β → γ}
    {g : γ → α → γ}
    {items : List α}
    {start final : β}
    (hStart : P start)
    (hStep :
      ∀ b, ∀ a ∈ items, ∀ b', P b → f b a = .ok b' →
        P b' ∧ V b' = g (V b) a)
    (hRun : items.foldlM f start = .ok final) :
    V final = items.foldl g (V start) := by
  induction items generalizing start with
  | nil =>
      cases hRun
      rfl
  | cons a rest ih =>
      rw [List.foldlM_cons] at hRun
      rcases bind_eq_ok_iff.mp hRun with
        ⟨middle, hHead, hRest⟩
      rcases hStep start a List.mem_cons_self middle hStart
          hHead with
        ⟨hMiddle, hSeen⟩
      have hTail := ih hMiddle
        (fun b c hc => hStep b c (List.mem_cons_of_mem _ hc))
        hRest
      rw [hTail, List.foldl_cons, hSeen]

theorem foldlM_eq_foldl
    {γ : Type}
    {f : β → α → Except ε β}
    {V : β → γ}
    {g : γ → α → γ}
    {items : List α}
    {start final : β}
    (hStep :
      ∀ b, ∀ a ∈ items, ∀ b', f b a = .ok b' →
        V b' = g (V b) a)
    (hRun : items.foldlM f start = .ok final) :
    V final = items.foldl g (V start) :=
  foldlM_eq_foldl_of (P := fun _ => True) trivial
    (fun b a ha b' _ hb => ⟨trivial, hStep b a ha b' hb⟩) hRun

/-
  A run whose steps each do one thing after another computation
  does these computations, and then all the things.
-/
theorem foldlM_eq_mapM
    {γ : Type}
    {f : β → α → Except ε β}
    {g : α → Except ε γ}
    {h : β → γ → β}
    {P : β → Prop}
    (hStep : ∀ b a, P b → f b a = (g a).map (h b))
    (hKeep : ∀ b c, P b → P (h b c))
    (items : List α)
    {start : β}
    (hStart : P start) :
    items.foldlM f start =
      (items.mapM g).map fun cs => cs.foldl h start := by
  induction items generalizing start with
  | nil => rfl
  | cons a rest ih =>
      rw [List.foldlM_cons, List.mapM_cons, hStep start a hStart]
      cases g a with
      | error e => rfl
      | ok c =>
          refine (ih (hKeep start c hStart)).trans ?_
          cases rest.mapM g <;> rfl

/- A run on images is the image of a run. -/
theorem foldlM_map_eq
    {γ : Type}
    {f : β → α → Except ε β}
    {g : γ → α → Except ε γ}
    {V : β → γ}
    {P : β → Prop}
    (hStep : ∀ b a, P b → g (V b) a = (f b a).map V)
    (hKeep : ∀ b a b', P b → f b a = .ok b' → P b')
    (items : List α)
    {start : β}
    (hStart : P start) :
    items.foldlM g (V start) = (items.foldlM f start).map V := by
  induction items generalizing start with
  | nil => rfl
  | cons a rest ih =>
      rw [List.foldlM_cons, List.foldlM_cons,
        hStep start a hStart]
      cases hHead : f start a with
      | error e => rfl
      | ok middle => exact ih (hKeep start a middle hStart hHead)

theorem foldl_iff
    {g : β → α → β}
    {M : β → Prop}
    {E : α → Prop}
    (hStep : ∀ b a, M (g b a) ↔ M b ∨ E a)
    (items : List α)
    (start : β) :
    M (items.foldl g start) ↔ M start ∨ ∃ a ∈ items, E a := by
  induction items generalizing start with
  | nil => simp
  | cons a rest ih =>
      rw [List.foldl_cons, ih, hStep]
      simp only [List.mem_cons, exists_eq_or_imp, or_assoc]

/- After some writes, the last one counts. -/
theorem foldl_or_eq
    (write : α → Option β)
    (items : List α)
    (found : Option β) :
    items.foldl (fun found a => (write a).or found) found =
      (items.filterMap write).getLast?.or found := by
  induction items generalizing found with
  | nil => rfl
  | cons a rest ih =>
      rw [List.foldl_cons, ih]
      cases hWrite : write a with
      | none => simp [hWrite]
      | some b =>
          cases hLast : (rest.filterMap write).getLast? <;>
            simp [hWrite, List.getLast?_cons, hLast]

/-
  What holds after a run held before it, or an item brought it
  about.
-/
theorem foldlM_iff
    {f : β → α → Except ε β}
    {M : β → Prop}
    {E : α → Prop}
    {items : List α}
    {start final : β}
    (hStep :
      ∀ b, ∀ a ∈ items, ∀ b', f b a = .ok b' →
        (M b' ↔ M b ∨ E a))
    (hRun : items.foldlM f start = .ok final) :
    M final ↔ M start ∨ ∃ a ∈ items, E a := by
  induction items generalizing start with
  | nil =>
      cases hRun
      simp
  | cons a rest ih =>
      rw [List.foldlM_cons] at hRun
      rcases bind_eq_ok_iff.mp hRun with
        ⟨middle, hHead, hRest⟩
      have hTail := ih
        (fun b c hc => hStep b c (List.mem_cons_of_mem _ hc))
        hRest
      rw [hTail, hStep start a List.mem_cons_self middle hHead]
      simp only [List.mem_cons, exists_eq_or_imp, or_assoc]

------------------------------------------------------------
-- Success
------------------------------------------------------------

/- A computation that gives a result. -/
def Succeeds
    (x : Except ε α) : Prop :=
  ∃ a, x = .ok a

namespace Succeeds

theorem bind
    {x : Except ε α}
    {f : α → Except ε β}
    (hFirst : Succeeds x)
    (hRest : ∀ a, x = .ok a → Succeeds (f a)) :
    Succeeds (x >>= f) := by
  rcases hFirst with ⟨a, hA⟩
  rcases hRest a hA with ⟨b, hB⟩
  exact ⟨b, bind_eq_ok_iff.mpr ⟨a, hA, hB⟩⟩

theorem mapM
    {f : α → Except ε β}
    {items : List α}
    (hItems : ∀ a ∈ items, Succeeds (f a)) :
    Succeeds (items.mapM f) := by
  rcases exists_forall₂ hItems with ⟨results, hResults⟩
  exact ⟨results, mapM_eq_ok_of_forall₂ hResults⟩

theorem foldlM
    {f : β → α → Except ε β}
    {items : List α}
    (hItems : ∀ b, ∀ a ∈ items, Succeeds (f b a))
    (start : β) :
    Succeeds (items.foldlM f start) := by
  have hStep :
      ∀ b, ∀ a ∈ items, True →
        ∃ b', f b a = .ok b' ∧ True := by
    intro b a ha _
    rcases hItems b a ha with ⟨b', hB⟩
    exact ⟨b', hB, trivial⟩
  have hRun :
      ∃ final, items.foldlM f start = .ok final ∧ True :=
    exists_foldlM trivial hStep
  exact hRun.imp fun final hFinal => hFinal.1

end Succeeds

------------------------------------------------------------
-- Agreement
------------------------------------------------------------

/- Two computations that both succeed, with one result. -/
def Agree
    (x y : Except ε α) : Prop :=
  ∃ a, x = .ok a ∧ y = .ok a

namespace Agree

theorem pure
    {a b : α}
    (hSame : a = b) :
    Agree (.ok a : Except ε α) (.ok b) :=
  ⟨a, rfl, by rw [hSame]⟩

/- Sequences of agreeing parts agree. -/
theorem bind
    {x y : Except ε α}
    {f g : α → Except ε β}
    (hFirst : Agree x y)
    (hRest : ∀ a, Agree (f a) (g a)) :
    Agree (x >>= f) (y >>= g) := by
  rcases hFirst with ⟨a, hLeft, hRight⟩
  rcases hRest a with ⟨b, hLeft', hRight'⟩
  exact ⟨b, bind_eq_ok_iff.mpr ⟨a, hLeft, hLeft'⟩,
    bind_eq_ok_iff.mpr ⟨a, hRight, hRight'⟩⟩

theorem mapM
    {f g : α → Except ε β}
    (hItems : ∀ a, Agree (f a) (g a))
    (items : List α) :
    Agree (items.mapM f) (items.mapM g) := by
  induction items with
  | nil => exact pure rfl
  | cons a rest ih =>
      rw [List.mapM_cons, List.mapM_cons]
      apply (hItems a).bind
      intro b
      apply ih.bind
      intro bs
      exact pure rfl

end Agree

------------------------------------------------------------
-- Bounded Computations
------------------------------------------------------------

/-
  A loop runs under a bound on the number of its steps, and has
  no outcome if that is not enough. It ends with an outcome if
  it has this one under every bound that is large enough.
-/
def Settles
    {γ : Type}
    (x : Nat → γ)
    (outcome : γ) : Prop :=
  ∃ steps, ∀ bound, steps ≤ bound → x bound = outcome

namespace Settles

variable {γ : Type} {m : Type → Type}

theorem const
    (outcome : γ) :
    Settles (fun _ => outcome) outcome :=
  ⟨0, fun _ _ => rfl⟩

/- A step more needs a larger bound. -/
theorem succ
    {x y : Nat → γ}
    {outcome : γ}
    (hStep : ∀ bound, y (bound + 1) = x bound)
    (hRest : Settles x outcome) :
    Settles y outcome := by
  rcases hRest with ⟨steps, hSteps⟩
  refine ⟨steps + 1, ?_⟩
  intro bound hBound
  have hPred : bound - 1 + 1 = bound := by omega
  rw [← hPred, hStep]
  exact hSteps _ (by omega)

variable [Monad m] [LawfulMonad m]

/- A sequence ends if its parts do. -/
theorem bind
    {x : Nat → m α}
    {f : Nat → α → m β}
    {a : α}
    {outcome : m β}
    (hFirst : Settles x (pure a))
    (hRest : Settles (f · a) outcome) :
    Settles (fun bound => x bound >>= f bound) outcome := by
  rcases hFirst with ⟨steps, hSteps⟩
  rcases hRest with ⟨more, hMore⟩
  refine ⟨max steps more, ?_⟩
  intro bound hBound
  calc
    (x bound >>= f bound) = pure a >>= f bound := by
      rw [hSteps bound (by omega)]
    _ = f bound a := pure_bind a (f bound)
    _ = outcome := hMore bound (by omega)

theorem mapM
    {f : Nat → α → m β}
    {g : α → β}
    {items : List α}
    (hItems : ∀ a ∈ items, Settles (f · a) (pure (g a))) :
    Settles (fun bound => items.mapM (f bound))
      (pure (items.map g)) := by
  induction items with
  | nil =>
      simp only [List.mapM_nil]
      exact const _
  | cons a rest ih =>
      simp only [List.mapM_cons]
      apply bind (hItems a List.mem_cons_self)
      apply bind (ih fun b hb =>
        hItems b (List.mem_cons_of_mem _ hb))
      exact const _

end Settles

end Uncaught
