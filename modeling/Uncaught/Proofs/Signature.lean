import Uncaught.Proofs.Data.Sorted
import Uncaught.Signature

/-
  Laws of the order of signatures. It tells two signatures
  apart unless they differ only in having no package and one
  without a name.

  Main declarations:
    * `Signature.order_eq_eq_iff`
    * `Signature.NamedPackage`
    * `Signature.eq_of_order_eq_eq`
    * `Signature.pairwise_lt_sort`
    * `Signature.Untied`
    * `Signature.sort_eq_of_perm`
    * `Signature.sortOn_of_pairwise`
-/

namespace Uncaught

namespace Signature

instance : Std.TransCmp order := by
  unfold order
  infer_instance

/- Signatures tie when all that is compared is the same. -/
theorem order_eq_eq_iff
    (a b : Signature) :
    order a b = .eq ↔
      a.owner = b.owner ∧ a.name = b.name ∧
        a.params = b.params ∧
          a.packageText = b.packageText ∧
            a.throws = b.throws := by
  simp [order, compareLex, compareOn, Ordering.then_eq_eq]

/- A package that is there has a name. -/
def NamedPackage
    (s : Signature) : Prop :=
  s.package ≠ some ""

instance
    (s : Signature) :
    Decidable s.NamedPackage := by
  unfold NamedPackage
  infer_instance

/- The text of a package tells which one it is. -/
theorem package_eq_of_packageText_eq
    {a b : Signature}
    (hLeft : a.NamedPackage)
    (hRight : b.NamedPackage)
    (hText : a.packageText = b.packageText) :
    a.package = b.package := by
  unfold NamedPackage at hLeft hRight
  unfold packageText at hText
  cases hA : a.package <;> cases hB : b.package <;>
    simp_all

/- Signatures with named packages tie only if they are equal. -/
theorem eq_of_order_eq_eq
    {a b : Signature}
    (hLeft : a.NamedPackage)
    (hRight : b.NamedPackage)
    (hOrder : order a b = .eq) :
    a = b := by
  rcases (order_eq_eq_iff a b).mp hOrder with
    ⟨hOwner, hName, hParams, hText, hThrows⟩
  have hPackage :=
    package_eq_of_packageText_eq hLeft hRight hText
  cases a
  cases b
  simp_all

------------------------------------------------------------
-- Sorting
------------------------------------------------------------

@[simp] theorem mem_sort
    (sigs : List Signature)
    (s : Signature) :
    s ∈ sort sigs ↔ s ∈ sigs :=
  List.mem_mergeSort

theorem sort_perm
    (sigs : List Signature) :
    (sort sigs).Perm sigs :=
  List.mergeSort_perm sigs le

theorem pairwise_sort
    (sigs : List Signature) :
    (sort sigs).Pairwise fun a b => (order a b).isLE :=
  pairwise_mergeSort_isLE order sigs

/- Distinct signatures with named packages come one by one. -/
theorem pairwise_lt_sort
    {sigs : List Signature}
    (hNodup : sigs.Nodup)
    (hNamed : ∀ s ∈ sigs, s.NamedPackage) :
    (sort sigs).Pairwise fun a b => order a b = .lt := by
  have hDistinct : (sort sigs).Nodup :=
    (sort_perm sigs).nodup_iff.mpr hNodup
  have hAll :=
    List.Pairwise.and_mem.mp
      ((pairwise_sort sigs).and hDistinct)
  apply hAll.imp
  rintro a b ⟨ha, hb, hOrder, hOther⟩
  rcases Ordering.isLE_iff_eq_lt_or_eq_eq.mp hOrder with
    hBefore | hTie
  · exact hBefore
  · exact absurd
      (eq_of_order_eq_eq (hNamed a ((mem_sort _ _).mp ha))
        (hNamed b ((mem_sort _ _).mp hb)) hTie)
      hOther

/- No two different signatures of a list tie. -/
def Untied
    (sigs : List Signature) : Prop :=
  ∀ a ∈ sigs, ∀ b ∈ sigs, order a b = .eq → a = b

instance
    (sigs : List Signature) :
    Decidable (Untied sigs) := by
  unfold Untied
  infer_instance

theorem Untied.of_mem_iff
    {left right : List Signature}
    (hUntied : Untied left)
    (hMem : ∀ s, s ∈ left ↔ s ∈ right) :
    Untied right := by
  intro a ha b hb
  exact hUntied a ((hMem a).mpr ha) b ((hMem b).mpr hb)

/- Where none tie, sorting depends on the members only. -/
theorem sort_eq_of_perm
    {left right : List Signature}
    (hTies : Untied left)
    (hPerm : left.Perm right) :
    sort left = sort right :=
  mergeSort_isLE_eq_of_perm order hTies hPerm

/- What is in order stays as it is. -/
theorem sort_of_pairwise
    {sigs : List Signature}
    (hSorted : sigs.Pairwise fun a b => (order a b).isLE) :
    sort sigs = sigs :=
  List.mergeSort_of_pairwise hSorted

theorem sortOn_perm
    {α : Type}
    (key : α → Signature)
    (items : List α) :
    (sortOn key items).Perm items :=
  List.mergeSort_perm items _

theorem pairwise_sortOn
    {α : Type}
    (key : α → Signature)
    (items : List α) :
    (sortOn key items).Pairwise fun a b =>
      (order (key a) (key b)).isLE := by
  apply List.pairwise_mergeSort
  · intro a b c hFirst hSecond
    exact Std.TransCmp.isLE_trans hFirst hSecond
  · intro a b
    exact isLE_total order (key a) (key b)

theorem sortOn_of_pairwise
    {α : Type}
    {key : α → Signature}
    {items : List α}
    (hSorted :
      items.Pairwise fun a b => (order (key a) (key b)).isLE) :
    sortOn key items = items :=
  List.mergeSort_of_pairwise hSorted

end Signature

end Uncaught
