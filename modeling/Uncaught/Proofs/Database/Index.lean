import Uncaught.Database.Query
import Uncaught.Proofs.Data.Table
import Uncaught.Proofs.Signature

/-
  Laws of the index of callers. The index has one place for
  each method and caller; of the calls that are put into one
  place, the last one stays.

  Main declarations:
    * `Database.edgeIn`
    * `Database.edgeIn_foldl_indexEdge`
    * `Database.mem_keys_foldl_indexEdge`
    * `Database.edgeIn_sorted`
    * `Database.eq_of_edgeIn_foldl_indexEdge`
    * `Database.SameCallers.eq`
    * `Database.Covers.sameCallers`
-/

namespace Uncaught

namespace Database

abbrev CallerIndex :=
  Table Signature (Table Signature DispatchEdge)

------------------------------------------------------------
-- Places
------------------------------------------------------------

/- The call in the place of a method and a caller. -/
def edgeIn
    (index : CallerIndex)
    (callee caller : Signature) : Option DispatchEdge :=
  (index.get? callee).bind (·.get? caller)

theorem edgeBetween_eq
    (db : Database)
    (callee caller : Signature) :
    db.edgeBetween callee caller =
      edgeIn db.callers callee caller := rfl

/- A method with no callers changes no place. -/
theorem edgeIn_insertNew
    (index : CallerIndex)
    (m callee caller : Signature) :
    edgeIn (index.insertNew m .empty) callee caller =
      edgeIn index callee caller := by
  unfold edgeIn
  rw [Table.get?_insertNew]
  by_cases hSame : callee = m
  · subst hSame
    cases index.get? callee <;> simp
  · simp [hSame]

/- A call that is put in stands in its own place. -/
theorem edgeIn_indexEdge
    (index : CallerIndex)
    (e : DispatchEdge)
    (callee caller : Signature) :
    edgeIn (indexEdge index e) callee caller =
      if callee = e.callee ∧ caller = e.caller then some e
      else edgeIn index callee caller := by
  rw [← edgeIn_insertNew index e.callee,
    ← edgeIn_insertNew (index.insertNew e.callee .empty)
      e.caller]
  unfold indexEdge edgeIn
  rw [Table.get?_modify]
  by_cases hCallee : callee = e.callee
  · subst hCallee
    have hKey :
        e.callee ∈ ((index.insertNew e.callee
          .empty).insertNew e.caller .empty).keys := by
      simp [Table.mem_keys_insertNew]
    rcases (Table.mem_keys_iff _ _).mp hKey with
      ⟨place, hPlace⟩
    simp [hPlace, Table.get?_insert]
  · simp [hCallee]

theorem mem_keys_indexEdge
    (index : CallerIndex)
    (e : DispatchEdge)
    (m : Signature) :
    m ∈ (indexEdge index e).keys ↔
      m ∈ index.keys ∨ m = e.callee ∨ m = e.caller := by
  unfold indexEdge
  rw [Table.mem_keys_modify, Table.mem_keys_insertNew,
    Table.mem_keys_insertNew]
  tauto

------------------------------------------------------------
-- Many Calls
------------------------------------------------------------

/- Whether a call stands in a place. -/
def standsIn
    (callee caller : Signature)
    (e : DispatchEdge) : Bool :=
  e.callee == callee && e.caller == caller

theorem standsIn_iff
    (callee caller : Signature)
    (e : DispatchEdge) :
    standsIn callee caller e = true ↔
      e.callee = callee ∧ e.caller = caller := by
  simp [standsIn]

/- In each place the last call that was put there stays. -/
theorem edgeIn_foldl_indexEdge
    (edges : List DispatchEdge)
    (index : CallerIndex)
    (callee caller : Signature) :
    edgeIn (edges.foldl indexEdge index) callee caller =
      (edges.filter (standsIn callee caller)).getLast?.or
        (edgeIn index callee caller) := by
  induction edges generalizing index with
  | nil => simp
  | cons e rest ih =>
      rw [List.foldl_cons, ih, edgeIn_indexEdge]
      by_cases hHere : standsIn callee caller e = true
      · have hPlace := (standsIn_iff callee caller e).mp hHere
        rw [List.filter_cons_of_pos hHere,
          List.getLast?_cons, if_pos ⟨hPlace.1.symm,
            hPlace.2.symm⟩]
        cases (rest.filter
          (standsIn callee caller)).getLast? <;> simp
      · have hPlace :
            ¬(callee = e.callee ∧ caller = e.caller) := by
          intro hSame
          apply hHere
          rw [standsIn_iff]
          exact ⟨hSame.1.symm, hSame.2.symm⟩
        rw [List.filter_cons_of_neg hHere, if_neg hPlace]

theorem mem_keys_foldl_indexEdge
    (edges : List DispatchEdge)
    (index : CallerIndex)
    (m : Signature) :
    m ∈ (edges.foldl indexEdge index).keys ↔
      m ∈ index.keys ∨
        ∃ e ∈ edges, m = e.callee ∨ m = e.caller := by
  induction edges generalizing index with
  | nil => simp
  | cons e rest ih =>
      rw [List.foldl_cons, ih, mem_keys_indexEdge]
      simp only [List.mem_cons, exists_eq_or_imp]
      exact or_assoc

theorem edgeIn_foldl_insertNew
    (methods : List Signature)
    (index : CallerIndex)
    (callee caller : Signature) :
    edgeIn (methods.foldl (·.insertNew · .empty) index)
        callee caller =
      edgeIn index callee caller := by
  induction methods generalizing index with
  | nil => rfl
  | cons m rest ih =>
      rw [List.foldl_cons, ih, edgeIn_insertNew]

theorem mem_keys_foldl_insertNew
    (methods : List Signature)
    (index : CallerIndex)
    (m : Signature) :
    m ∈ (methods.foldl (·.insertNew · .empty) index).keys ↔
      m ∈ index.keys ∨ m ∈ methods := by
  induction methods generalizing index with
  | nil => simp
  | cons first rest ih =>
      rw [List.foldl_cons, ih, Table.mem_keys_insertNew,
        List.mem_cons]
      tauto

------------------------------------------------------------
-- Order Of Calls
------------------------------------------------------------

/- A comparison of parts is one of the wholes. -/
instance transCmp_part
    {α β : Type}
    (cmp : β → β → Ordering)
    [Std.TransCmp cmp]
    (part : α → β) :
    Std.TransCmp fun a b => cmp (part a) (part b) where
  eq_swap := Std.OrientedCmp.eq_swap
  isLE_trans := Std.TransCmp.isLE_trans

/- The comparison by which calls are sorted. -/
def edgeOrder : DispatchEdge → DispatchEdge → Ordering :=
  compareLex (fun a b => Signature.order a.callee b.callee)
    (compareLex
      (fun a b => Signature.order a.caller b.caller)
      (fun a b => Signature.order a.written b.written))

instance : Std.TransCmp edgeOrder := by
  unfold edgeOrder
  infer_instance

/- In one place calls are sorted by the written method. -/
theorem edgeOrder_of_same_place
    {a b : DispatchEdge}
    (hCallee : a.callee = b.callee)
    (hCaller : a.caller = b.caller) :
    edgeOrder a b = Signature.order a.written b.written := by
  simp [edgeOrder, compareLex, hCallee, hCaller,
    Std.ReflCmp.compare_self]

/-
  Of a list in order the last member comes after all others or
  ties with them.
-/
theorem rel_getLast_of_pairwise
    {α : Type}
    {R : α → α → Prop}
    {items : List α}
    {last a : α}
    (hOrder : items.Pairwise R)
    (hLast : items.getLast? = some last)
    (hMem : a ∈ items) :
    a = last ∨ R a last := by
  rcases List.getLast?_eq_some_iff.mp hLast with
    ⟨front, rfl⟩
  rcases List.mem_append.mp hMem with hFront | hEnd
  · exact .inr ((List.pairwise_append.mp hOrder).2.2 a hFront
      last (List.mem_singleton.mpr rfl))
  · exact .inl (List.mem_singleton.mp hEnd)

/-
  After calls are put in by their order, a place holds one of
  the calls that belong there, and no other of them comes after
  it.
-/
theorem edgeIn_sorted
    {edges : List DispatchEdge}
    {index : CallerIndex}
    {e : DispatchEdge}
    (hMem : e ∈ edges) :
    ∃ kept ∈ edges,
      edgeIn ((edges.mergeSort edgeLe).foldl indexEdge index)
          e.callee e.caller = some kept ∧
        kept.callee = e.callee ∧ kept.caller = e.caller ∧
          (Signature.order e.written kept.written).isLE := by
  -- the calls of the place, of which the last one stays
  let here :=
    (edges.mergeSort edgeLe).filter
      (standsIn e.callee e.caller)
  have hHere : e ∈ here := by
    apply List.mem_filter.mpr
    refine ⟨List.mem_mergeSort.mpr hMem, ?_⟩
    exact (standsIn_iff _ _ _).mpr ⟨rfl, rfl⟩
  have hSorted :
      here.Pairwise fun a b => (edgeOrder a b).isLE :=
    (pairwise_mergeSort_isLE edgeOrder edges).filter _
  cases hLast : here.getLast? with
  | none =>
      rw [List.getLast?_eq_none_iff.mp hLast] at hHere
      simp at hHere
  | some kept =>
      have hKept := List.mem_filter.mp
        (List.mem_of_getLast? hLast)
      have hPlace := (standsIn_iff _ _ _).mp hKept.2
      refine ⟨kept, List.mem_mergeSort.mp hKept.1, ?_,
        hPlace.1, hPlace.2, ?_⟩
      · rw [edgeIn_foldl_indexEdge]
        change here.getLast?.or _ = some kept
        rw [hLast]
        rfl
      · rw [← edgeOrder_of_same_place hPlace.1.symm
          hPlace.2.symm]
        rcases rel_getLast_of_pairwise hSorted hLast hHere with
          hSame | hBefore
        · have hTie : edgeOrder kept kept = .eq :=
            Std.ReflCmp.compare_self
          rw [hSame, hTie]
          rfl
        · exact hBefore

/- A place holds only calls that belong there. -/
theorem eq_of_edgeIn_foldl_indexEdge
    {edges : List DispatchEdge}
    {index : CallerIndex}
    {callee caller : Signature}
    {e : DispatchEdge}
    (hPlace :
      edgeIn (edges.foldl indexEdge index) callee caller =
        some e) :
    (e ∈ edges ∧ e.callee = callee ∧ e.caller = caller) ∨
      edgeIn index callee caller = some e := by
  rw [edgeIn_foldl_indexEdge, Option.or_eq_some_iff] at hPlace
  rcases hPlace with hLast | ⟨-, hOld⟩
  · have hMem := List.mem_filter.mp (List.mem_of_getLast? hLast)
    exact .inl ⟨hMem.1, (standsIn_iff _ _ _).mp hMem.2⟩
  · exact .inr hOld

------------------------------------------------------------
-- Putting Calls In Again
------------------------------------------------------------

/-
  Two indices have the same methods with the same callers, all
  in the same order.
-/
structure SameShape
    (index other : CallerIndex) : Prop where
  methods : index.keys = other.keys
  callers :
    ∀ m, (index.get? m).map Table.keys =
      (other.get? m).map Table.keys

variable {index other : CallerIndex}

/- Beside its shape an index has nothing but its places. -/
theorem SameShape.eq
    (hShape : SameShape index other)
    (hPlaces :
      ∀ callee caller,
        edgeIn index callee caller =
          edgeIn other callee caller) :
    index = other := by
  apply Table.ext_get? hShape.methods
  intro m
  have hCallers := hShape.callers m
  cases hLeft : index.get? m with
  | none =>
      cases hRight : other.get? m with
      | none => rfl
      | some callers' => simp [hLeft, hRight] at hCallers
  | some callers =>
      cases hRight : other.get? m with
      | none => simp [hLeft, hRight] at hCallers
      | some callers' =>
          congr 1
          apply Table.ext_get?
          · simpa [hLeft, hRight] using hCallers
          · intro caller
            simpa [edgeIn, hLeft, hRight] using
              hPlaces m caller

theorem SameShape.symm
    (hShape : SameShape index other) :
    SameShape other index where
  methods := hShape.methods.symm
  callers m := (hShape.callers m).symm

theorem SameShape.trans
    {last : CallerIndex}
    (hFirst : SameShape index other)
    (hSecond : SameShape other last) :
    SameShape index last where
  methods := hFirst.methods.trans hSecond.methods
  callers m := (hFirst.callers m).trans (hSecond.callers m)

/- A call is in an index: its methods are, and its place is taken. -/
def Holds
    (index : CallerIndex)
    (e : DispatchEdge) : Prop :=
  e.caller ∈ index.keys ∧
    (edgeIn index e.callee e.caller).isSome = true

/- What is in an index stays in it. -/
theorem Holds.indexEdge
    {e : DispatchEdge}
    (hHolds : Holds index e)
    (first : DispatchEdge) :
    Holds (indexEdge index first) e := by
  refine ⟨?_, ?_⟩
  · exact (mem_keys_indexEdge _ _ _).mpr (.inl hHolds.1)
  · rw [edgeIn_indexEdge]
    split
    · rfl
    · exact hHolds.2

/- A call whose place is taken adds neither method nor caller. -/
theorem Holds.sameShape
    {e : DispatchEdge}
    (hHolds : Holds index e) :
    SameShape (Database.indexEdge index e) index := by
  rcases Option.isSome_iff_exists.mp hHolds.2 with
    ⟨old, hOld⟩
  rcases Option.bind_eq_some_iff.mp hOld with
    ⟨callers, hCallers, hCaller⟩
  have hCallee : e.callee ∈ index.keys :=
    (Table.mem_keys_iff _ _).mpr ⟨callers, hCallers⟩
  have hKey : e.caller ∈ callers.keys :=
    (Table.mem_keys_iff _ _).mpr ⟨old, hCaller⟩
  simp only [Database.indexEdge,
    Table.insertNew_of_mem hCallee,
    Table.insertNew_of_mem hHolds.1]
  refine ⟨Table.keys_modify _ _ _, ?_⟩
  intro m
  rw [Table.get?_modify]
  by_cases hSame : m = e.callee
  · subst hSame
    simp [hCallers, Table.keys_insert_of_mem hKey]
  · simp [hSame]

theorem sameShape_foldl_indexEdge
    {edges : List DispatchEdge}
    (hHolds : ∀ e ∈ edges, Holds index e) :
    SameShape (edges.foldl indexEdge index) index := by
  induction edges generalizing index with
  | nil => exact ⟨rfl, fun _ => rfl⟩
  | cons first rest ih =>
      have hFirst := hHolds first List.mem_cons_self
      have hRest := ih fun e he =>
        (hHolds e (List.mem_cons_of_mem _ he)).indexEdge first
      exact hRest.trans hFirst.sameShape

/- Methods that are in an index can be put in again. -/
theorem foldl_insertNew_of_mem
    {methods : List Signature}
    (hMem : ∀ m ∈ methods, m ∈ index.keys) :
    methods.foldl (·.insertNew · .empty) index = index := by
  induction methods with
  | nil => rfl
  | cons m rest ih =>
      rw [List.foldl_cons,
        Table.insertNew_of_mem (hMem m List.mem_cons_self)]
      exact ih fun m hm => hMem m (List.mem_cons_of_mem _ hm)

------------------------------------------------------------
-- Calls That Tie
------------------------------------------------------------

/-
  Two calls that stand in one place, and that their order does
  not tell apart.
-/
def Ties
    (a b : DispatchEdge) : Prop :=
  a.callee = b.callee ∧ a.caller = b.caller ∧
    Signature.order a.written b.written = .eq

instance
    (a b : DispatchEdge) :
    Decidable (Ties a b) := by
  unfold Ties
  infer_instance

/- With named packages, calls tie only if they are equal. -/
theorem Ties.eq_of_named
    {a b : DispatchEdge}
    (hTies : Ties a b)
    (hLeft : a.written.NamedPackage)
    (hRight : b.written.NamedPackage) :
    a = b := by
  rcases hTies with ⟨hCallee, hCaller, hOrder⟩
  have hWritten :=
    Signature.eq_of_order_eq_eq hLeft hRight hOrder
  cases a
  cases b
  simp_all

theorem Ties.trans
    {a b c : DispatchEdge}
    (hFirst : Ties a b)
    (hSecond : Ties b c) :
    Ties a c :=
  ⟨hFirst.1.trans hSecond.1, hFirst.2.1.trans hSecond.2.1,
    Std.TransCmp.eq_trans hFirst.2.2 hSecond.2.2⟩

/-
  Two indices have the same methods with the same callers. A
  place holds the same call in both, or two of the given calls
  that tie.
-/
structure SameCallers
    (edges : List DispatchEdge)
    (index other : CallerIndex) : Prop where
  shape : SameShape index other
  places :
    ∀ callee caller,
      edgeIn index callee caller =
          edgeIn other callee caller ∨
        ∃ a ∈ edges, ∃ b ∈ edges, Ties a b ∧
          edgeIn index callee caller = some a ∧
            edgeIn other callee caller = some b

namespace SameCallers

variable {edges listed : List DispatchEdge}

theorem refl
    (edges : List DispatchEdge)
    (index : CallerIndex) :
    SameCallers edges index index where
  shape := ⟨rfl, fun _ => rfl⟩
  places _ _ := .inl rfl

theorem trans
    {last : CallerIndex}
    (hFirst : SameCallers edges index other)
    (hSecond : SameCallers edges other last) :
    SameCallers edges index last where
  shape := hFirst.shape.trans hSecond.shape
  places := by
    intro callee caller
    rcases hFirst.places callee caller with
      hSame | ⟨a, ha, b, hb, hTies, hLeft, hRight⟩
    · rw [hSame]
      exact hSecond.places callee caller
    · rcases hSecond.places callee caller with
        hSame | ⟨b', -, c, hc, hTies', hLeft', hRight'⟩
      · exact .inr ⟨a, ha, b, hb, hTies, hLeft, hSame ▸ hRight⟩
      · rw [hRight] at hLeft'
        cases hLeft'
        exact .inr ⟨a, ha, c, hc, hTies.trans hTies', hLeft,
          hRight'⟩

theorem of_perm
    (hSame : SameCallers listed index other)
    (hPerm : edges.Perm listed) :
    SameCallers edges index other where
  shape := hSame.shape
  places := by
    intro callee caller
    rcases hSame.places callee caller with
      hPlace | ⟨a, ha, b, hb, hTies⟩
    · exact .inl hPlace
    · exact .inr ⟨a, hPerm.mem_iff.mpr ha, b,
        hPerm.mem_iff.mpr hb, hTies⟩

/- Where no two calls tie, the indices are one. -/
theorem eq
    (hSame : SameCallers edges index other)
    (hApart :
      ∀ a ∈ edges, ∀ b ∈ edges, Ties a b → a = b) :
    index = other := by
  apply hSame.shape.eq
  intro callee caller
  rcases hSame.places callee caller with
    hPlace | ⟨a, ha, b, hb, hTies, hLeft, hRight⟩
  · exact hPlace
  · rw [hLeft, hRight, hApart a ha b hb hTies]

end SameCallers

/-
  An index covers calls if all of them are in it, and none of
  them comes after the one that its place holds.
-/
def Covers
    (edges : List DispatchEdge)
    (index : CallerIndex) : Prop :=
  ∀ e ∈ edges,
    e.caller ∈ index.keys ∧
      ∃ kept ∈ edges,
        edgeIn index e.callee e.caller = some kept ∧
          kept.callee = e.callee ∧ kept.caller = e.caller ∧
            (Signature.order e.written kept.written).isLE

/- Calls that are put in by their order are covered. -/
theorem covers_sorted
    (edges : List DispatchEdge)
    (index : CallerIndex) :
    Covers edges
      ((edges.mergeSort edgeLe).foldl indexEdge index) := by
  intro e he
  refine ⟨?_, edgeIn_sorted he⟩
  exact (mem_keys_foldl_indexEdge _ _ _).mpr
    (.inr ⟨e, List.mem_mergeSort.mpr he, .inr rfl⟩)

namespace Covers

variable {edges listed : List DispatchEdge}

theorem holds
    (hCovers : Covers edges index)
    {e : DispatchEdge}
    (hMem : e ∈ edges) :
    Holds index e := by
  rcases hCovers e hMem with ⟨hCaller, kept, -, hPlace, -⟩
  exact ⟨hCaller, Option.isSome_iff_exists.mpr ⟨kept, hPlace⟩⟩

/-
  When calls that are covered are put in again, only calls that
  tie change their places.
-/
theorem sameCallers
    (hCovers : Covers edges index) :
    SameCallers edges index
      ((edges.mergeSort edgeLe).foldl indexEdge index) where
  shape := by
    apply SameShape.symm
    apply sameShape_foldl_indexEdge
    intro e he
    exact hCovers.holds (List.mem_mergeSort.mp he)
  places := by
    intro callee caller
    have hPlaces :=
      edgeIn_foldl_indexEdge (edges.mergeSort edgeLe) index
        callee caller
    cases hLast :
        ((edges.mergeSort edgeLe).filter
          (standsIn callee caller)).getLast? with
    | none =>
        rw [hLast] at hPlaces
        exact .inl hPlaces.symm
    | some last =>
        rw [hLast] at hPlaces
        have hHere :=
          List.mem_filter.mp (List.mem_of_getLast? hLast)
        rcases (standsIn_iff _ _ _).mp hHere.2 with ⟨rfl, rfl⟩
        have hMem := List.mem_mergeSort.mp hHere.1
        rcases (hCovers last hMem).2 with
          ⟨kept, hKept, hPlace, hCallee, hCaller, hAfter⟩
        -- neither of the two comes after the other
        rcases @edgeIn_sorted edges index kept hKept with
          ⟨last', -, hEnd, -, -, hBefore⟩
        rw [hCallee, hCaller, hPlaces] at hEnd
        cases hEnd
        exact .inr ⟨kept, hKept, last, hMem,
          ⟨hCallee, hCaller,
            Std.OrientedCmp.isLE_antisymm hBefore hAfter⟩,
          hPlace, hPlaces⟩

/- An index with the same callers covers the same calls. -/
theorem of_sameCallers
    (hCovers : Covers edges index)
    (hSame : SameCallers edges index other)
    (hPerm : edges.Perm listed) :
    Covers listed other := by
  intro e he
  rcases hCovers e (hPerm.mem_iff.mpr he) with
    ⟨hKey, kept, hKept, hPlace, hCallee, hCaller, hAfter⟩
  refine ⟨hSame.shape.methods ▸ hKey, ?_⟩
  rcases hSame.places e.callee e.caller with
    hHere | ⟨a, -, b, hb, hTies, hLeft, hRight⟩
  · exact ⟨kept, hPerm.mem_iff.mp hKept, hHere ▸ hPlace,
      hCallee, hCaller, hAfter⟩
  · rw [hPlace] at hLeft
    cases hLeft
    refine ⟨b, hPerm.mem_iff.mp hb, hRight,
      hTies.1.symm.trans hCallee, hTies.2.1.symm.trans hCaller,
      ?_⟩
    exact Std.TransCmp.isLE_trans hAfter
      (Ordering.isLE_of_eq_eq hTies.2.2)

end Covers

/- Of calls that tie, the one that is listed first goes. -/
theorem edgeIn_sorted_cons_ne
    {first other : DispatchEdge}
    {rest : List DispatchEdge}
    (index : CallerIndex)
    (hNew : first ∉ rest)
    (hOther : other ∈ rest)
    (hTies : Ties first other) :
    edgeIn (((first :: rest).mergeSort edgeLe).foldl indexEdge
        index) first.callee first.caller ≠ some first := by
  have hTrans :
      ∀ a b c, edgeLe a b = true → edgeLe b c = true →
        edgeLe a c = true := by
    intro a b c hFirst hSecond
    change (edgeOrder a b).isLE at hFirst
    change (edgeOrder b c).isLE at hSecond
    exact Std.TransCmp.isLE_trans hFirst hSecond
  have hTotal :
      ∀ a b, (edgeLe a b || edgeLe b a) = true :=
    isLE_total edgeOrder
  have hLe : edgeLe first other = true := by
    change (edgeOrder first other).isLE
    rw [edgeOrder_of_same_place hTies.1 hTies.2.1, hTies.2.2]
    rfl
  -- the first one is put before all that it comes not after
  rcases List.mergeSort_cons hTrans hTotal first rest with
    ⟨front, back, hSorted, hRest, hFront⟩
  have hBack : other ∈ back := by
    have hMem : other ∈ front ++ back :=
      hRest ▸ List.mem_mergeSort.mpr hOther
    rcases List.mem_append.mp hMem with hIn | hIn
    · have hNot := hFront other hIn
      simp [hLe] at hNot
    · exact hIn
  have hHere :
      other ∈ back.filter
        (standsIn first.callee first.caller) :=
    List.mem_filter.mpr ⟨hBack, (standsIn_iff _ _ _).mpr
      ⟨hTies.1.symm, hTies.2.1.symm⟩⟩
  rcases Option.isSome_iff_exists.mp
      (List.getLast?_isSome.mpr (List.ne_nil_of_mem hHere)) with
    ⟨last, hLast⟩
  rw [edgeIn_foldl_indexEdge, hSorted, List.filter_append,
    List.filter_cons_of_pos (by simp [standsIn]),
    List.getLast?_append, List.getLast?_cons, hLast,
    Option.getD_some, Option.some_or]
  intro hSame
  cases hSame
  have hIn := List.mem_filter.mp (List.mem_of_getLast? hLast)
  exact hNew (List.mem_mergeSort.mp
    (hRest ▸ List.mem_append_right front hIn.1))

end Database

end Uncaught
