import Mathlib.Data.List.Nodup
import Uncaught.Data.Sorted

/-
  Laws of sorting: a list that is sorted by a comparison is in
  its order, lists with the same members are sorted to the same
  list where no two members tie, and the sorted set of names has
  the same names.

  Main declarations:
    * `nodup_eraseDups`
    * `filter_append_filter_not`
    * `pairwise_mergeSort_isLE`
    * `mergeSort_eq_of_perm`
    * `forall₂_mergeSort`
    * `mem_nameSet`
    * `pairwise_lt_sortNames`
    * `pairwise_lt_nameSet`
    * `nameSet_eq_of_mem_iff`
-/

namespace Uncaught

------------------------------------------------------------
-- Repetitions
------------------------------------------------------------

theorem nodup_eraseDups
    {α : Type}
    [DecidableEq α]
    (items : List α) :
    items.eraseDups.Nodup := by
  -- induction on the length, as the tail is filtered first
  induction hSize : items.length using Nat.strongRecOn
    generalizing items with
  | ind size ih =>
      cases items with
      | nil => simp
      | cons a rest =>
          rw [List.eraseDups_cons, List.nodup_cons]
          have hShorter :
              (rest.filter fun b => !b == a).length < size := by
            have hLength :=
              List.length_filter_le (fun b => !b == a) rest
            rw [List.length_cons] at hSize
            omega
          refine ⟨?_, ih _ hShorter _ rfl⟩
          simp [List.mem_eraseDups]

/- A list without repetitions has none to drop. -/
theorem eraseDups_eq_self
    {α : Type}
    [DecidableEq α]
    {items : List α}
    (hNodup : items.Nodup) :
    items.eraseDups = items := by
  induction items with
  | nil => simp
  | cons a rest ih =>
      rcases List.nodup_cons.mp hNodup with ⟨hNew, hRest⟩
      have hKept : (rest.filter fun b => !b == a) = rest := by
        rw [List.filter_eq_self]
        intro b hb
        have hOther : b ≠ a := fun hSame => hNew (hSame ▸ hb)
        simpa using hOther
      rw [List.eraseDups_cons, hKept, ih hRest]

------------------------------------------------------------
-- Order
------------------------------------------------------------

/- One of two things comes first, or they tie. -/
theorem isLE_total
    {α : Type}
    (cmp : α → α → Ordering)
    [Std.OrientedCmp cmp]
    (a b : α) :
    ((cmp a b).isLE || (cmp b a).isLE) = true := by
  have hSwap : cmp b a = (cmp a b).swap :=
    Std.OrientedCmp.eq_swap
  rw [hSwap]
  cases cmp a b <;> rfl

/- A list in which what has a property comes first is split. -/
theorem filter_append_filter_not
    {α : Type}
    {p : α → Bool}
    {items : List α}
    (hFirst :
      items.Pairwise fun a b => p b = true → p a = true) :
    items.filter p ++ items.filter (fun a => !p a) = items := by
  induction items with
  | nil => rfl
  | cons a rest ih =>
      rcases List.pairwise_cons.mp hFirst with ⟨hHead, hRest⟩
      by_cases ha : p a = true
      · simpa [ha] using ih hRest
      · have hNone : rest.filter p = [] := by
          rw [List.filter_eq_nil_iff]
          exact fun b hb hp => ha (hHead b hb hp)
        have hAll := ih hRest
        rw [hNone, List.nil_append] at hAll
        simp [ha, hNone, hAll]

/- A list that is sorted by a comparison is in its order. -/
theorem pairwise_mergeSort_isLE
    {α : Type}
    (cmp : α → α → Ordering)
    [Std.TransCmp cmp]
    (items : List α) :
    (items.mergeSort (fun a b => (cmp a b).isLE)).Pairwise
      (fun a b => (cmp a b).isLE) := by
  apply List.pairwise_mergeSort
  · intro a b c hFirst hSecond
    exact Std.TransCmp.isLE_trans hFirst hSecond
  · intro a b
    exact isLE_total cmp a b

/-
  Two lists with the same members are sorted to one list, where
  no two different members tie.
-/
theorem mergeSort_eq_of_perm
    {α : Type}
    {le : α → α → Bool}
    (hTrans : ∀ a b c, le a b → le b c → le a c)
    (hTotal : ∀ a b, le a b || le b a)
    {left right : List α}
    (hTies :
      ∀ a ∈ left, ∀ b ∈ left, le a b → le b a → a = b)
    (hPerm : left.Perm right) :
    left.mergeSort le = right.mergeSort le := by
  have hSorted :
      ((left.mergeSort le).Perm (right.mergeSort le)) :=
    ((List.mergeSort_perm left le).trans hPerm).trans
      (List.mergeSort_perm right le).symm
  refine List.Perm.eq_of_pairwise ?_
    (List.pairwise_mergeSort hTrans hTotal left)
    (List.pairwise_mergeSort hTrans hTotal right) hSorted
  intro a b ha hb
  exact hTies a (List.mem_mergeSort.mp ha) b
    (hPerm.mem_iff.mpr (List.mem_mergeSort.mp hb))

theorem mergeSort_isLE_eq_of_perm
    {α : Type}
    (cmp : α → α → Ordering)
    [Std.TransCmp cmp]
    {left right : List α}
    (hTies : ∀ a ∈ left, ∀ b ∈ left, cmp a b = .eq → a = b)
    (hPerm : left.Perm right) :
    left.mergeSort (fun a b => (cmp a b).isLE) =
      right.mergeSort (fun a b => (cmp a b).isLE) := by
  refine mergeSort_eq_of_perm ?_ (isLE_total cmp) ?_ hPerm
  · intro a b c hFirst hSecond
    exact Std.TransCmp.isLE_trans hFirst hSecond
  · intro a ha b hb hFirst hSecond
    exact hTies a ha b hb
      (Std.OrientedCmp.isLE_antisymm hFirst hSecond)

/-
  Lists of related members stay so when both are sorted, where
  related members compare the same.
-/
theorem forall₂_mergeSort
    {α β : Type}
    {R : α → β → Prop}
    {le : α → α → Bool}
    {le' : β → β → Bool}
    {left : List α}
    {right : List β}
    (hLe :
      ∀ a b c d, R a c → R b d → le a b = le' c d)
    (hAll : List.Forall₂ R left right) :
    List.Forall₂ R (left.mergeSort le)
      (right.mergeSort le') := by
  -- the pairs are sorted once, for both sides
  rcases List.forall₂_iff_zip.mp hAll with ⟨hLength, hPairs⟩
  have hLeft : (left.zip right).map Prod.fst = left :=
    List.map_fst_zip (Nat.le_of_eq hLength)
  have hRight : (left.zip right).map Prod.snd = right :=
    List.map_snd_zip (Nat.le_of_eq hLength.symm)
  have hFirst :=
    List.map_mergeSort (r := fun p q => le p.1 q.1) (s := le)
      (f := Prod.fst) (l := left.zip right)
      fun _ _ _ _ => rfl
  have hSecond :=
    List.map_mergeSort (r := fun p q => le p.1 q.1) (s := le')
      (f := Prod.snd) (l := left.zip right)
      fun p hp q hq => hLe _ _ _ _ (hPairs hp) (hPairs hq)
  rw [hLeft] at hFirst
  rw [hRight] at hSecond
  rw [← hFirst, ← hSecond, List.forall₂_map_left_iff,
    List.forall₂_map_right_iff, List.forall₂_same]
  intro p hp
  exact hPairs (List.mem_mergeSort.mp hp)

------------------------------------------------------------
-- Names
------------------------------------------------------------

@[simp] theorem mem_sortNames
    (names : List String)
    (n : String) :
    n ∈ sortNames names ↔ n ∈ names := by
  simp [sortNames]

@[simp] theorem mem_nameSet
    (names : List String)
    (n : String) :
    n ∈ nameSet names ↔ n ∈ names := by
  simp [nameSet, List.mem_eraseDups]

theorem decide_le_trans
    (a b c : String)
    (hFirst : decide (a ≤ b) = true)
    (hSecond : decide (b ≤ c) = true) :
    decide (a ≤ c) = true :=
  decide_eq_true (String.le_trans (of_decide_eq_true hFirst)
    (of_decide_eq_true hSecond))

theorem decide_le_total
    (a b : String) :
    (decide (a ≤ b) || decide (b ≤ a)) = true := by
  simpa using String.le_total a b

theorem pairwise_sortNames
    (names : List String) :
    (sortNames names).Pairwise (· ≤ ·) :=
  (List.pairwise_mergeSort decide_le_trans decide_le_total
    names).imp of_decide_eq_true

/- Names without repetitions are sorted by who they are. -/
theorem sortNames_eq_of_perm
    {left right : List String}
    (hPerm : left.Perm right) :
    sortNames left = sortNames right := by
  apply mergeSort_eq_of_perm decide_le_trans decide_le_total _
    hPerm
  intro a _ b _ hFirst hSecond
  exact String.le_antisymm (of_decide_eq_true hFirst)
    (of_decide_eq_true hSecond)

/- Names without repetitions are sorted to increasing ones. -/
theorem pairwise_lt_sortNames
    {names : List String}
    (hNodup : names.Nodup) :
    (sortNames names).Pairwise (· < ·) := by
  have hSorted : (sortNames names).Nodup :=
    (List.mergeSort_perm _ _).nodup_iff.mpr hNodup
  apply ((pairwise_sortNames _).and hSorted).imp
  rintro a b ⟨hOrder, hOther⟩
  exact Std.lt_of_le_of_ne hOrder hOther

/- A set of names is in increasing order, without repetitions. -/
theorem pairwise_lt_nameSet
    (names : List String) :
    (nameSet names).Pairwise (· < ·) :=
  pairwise_lt_sortNames (nodup_eraseDups names)

/- A set of names is the same for lists with the same names. -/
theorem nameSet_eq_of_mem_iff
    {left right : List String}
    (hMem : ∀ n, n ∈ left ↔ n ∈ right) :
    nameSet left = nameSet right := by
  apply sortNames_eq_of_perm
  apply (List.perm_ext_iff_of_nodup (nodup_eraseDups left)
    (nodup_eraseDups right)).mpr
  intro n
  rw [List.mem_eraseDups, List.mem_eraseDups, hMem n]

end Uncaught
