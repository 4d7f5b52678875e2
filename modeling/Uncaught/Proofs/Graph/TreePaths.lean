import Uncaught.Graph.Search
import Uncaught.Proofs.Graph.Basic

/-
  Correctness of the breadth-first tree: its paths go from the
  start through distinct nodes, and the nodes on them are the
  ones that can be reached.

  Main declarations:
    * `Graph.Frontier`
    * `Graph.isPath_of_mem_treePaths`
    * `Graph.exists_mem_treePaths_iff`
-/

namespace Uncaught

namespace Graph

open Relation

variable {α : Type} [DecidableEq α]
variable {next : α → List α} {start : α} {unseen : List α}

------------------------------------------------------------
-- Found Nodes
------------------------------------------------------------

@[simp] theorem mem_fresh
    (unseen nodes : List α)
    (n : α) :
    n ∈ fresh unseen nodes ↔ n ∈ nodes ∧ n ∈ unseen := by
  simp [fresh, List.mem_eraseDups]

@[simp] theorem mem_without
    (unseen nodes : List α)
    (n : α) :
    n ∈ without unseen nodes ↔ n ∈ unseen ∧ n ∉ nodes := by
  simp [without]

------------------------------------------------------------
-- Waiting Paths
------------------------------------------------------------

/-
  What holds of the waiting paths throughout the search. Their
  nodes are seen, and all but the last one are expanded: their
  next nodes are seen as well.
-/
structure Frontier
    (next : α → List α)
    (start : α)
    (unseen : List α)
    (waiting : List (α × List α)) : Prop where
  path : ∀ w ∈ waiting, IsPath next start (w.1 :: w.2).reverse
  seen : ∀ w ∈ waiting, ∀ x ∈ w.1 :: w.2, x ∉ unseen
  expanded : ∀ w ∈ waiting, ∀ x ∈ w.2, ∀ y ∈ next x, y ∉ unseen

omit [DecidableEq α] in
theorem Frontier.tail
    {w : α × List α}
    {waiting : List (α × List α)}
    (hFrontier : Frontier next start unseen (w :: waiting)) :
    Frontier next start unseen waiting where
  path := fun v hv =>
    hFrontier.path v (List.mem_cons_of_mem _ hv)
  seen := fun v hv =>
    hFrontier.seen v (List.mem_cons_of_mem _ hv)
  expanded := fun v hv =>
    hFrontier.expanded v (List.mem_cons_of_mem _ hv)

/- A waiting path goes on to an unseen next node. -/
omit [DecidableEq α] in
theorem Frontier.isPath_cons
    {n m : α}
    {before : List α}
    {waiting : List (α × List α)}
    (hFrontier :
      Frontier next start unseen ((n, before) :: waiting))
    (hNext : m ∈ next n)
    (hUnseen : m ∈ unseen) :
    IsPath next start (m :: n :: before).reverse := by
  have hPath := hFrontier.path _ List.mem_cons_self
  have hSeen := hFrontier.seen _ List.mem_cons_self
  refine ⟨?_, ?_, ?_⟩
  · rw [List.reverse_cons, List.head?_append, hPath.head]
    rfl
  · have hSteps := List.isChain_reverse.mp hPath.steps
    exact List.isChain_reverse.mpr
      (List.isChain_cons_cons.mpr ⟨hNext, hSteps⟩)
  · rw [List.nodup_reverse, List.nodup_cons]
    refine ⟨?_, List.nodup_reverse.mp hPath.nodup⟩
    intro hMem
    exact hSeen m hMem hUnseen

/- Expanding a node keeps what holds of the waiting paths. -/
theorem Frontier.expand
    {n : α}
    {before : List α}
    {waiting : List (α × List α)}
    (hFrontier :
      Frontier next start unseen ((n, before) :: waiting)) :
    Frontier next start
      (without unseen (fresh unseen (next n)))
      (waiting ++
        (fresh unseen (next n)).map (·, n :: before)) := by
  have hTail := hFrontier.tail
  refine ⟨?_, ?_, ?_⟩
  · intro w hw
    rcases List.mem_append.mp hw with hOld | hNew
    · exact hTail.path w hOld
    · rcases List.mem_map.mp hNew with ⟨m, hFresh, rfl⟩
      have hFresh := (mem_fresh _ _ _).mp hFresh
      exact hFrontier.isPath_cons hFresh.1 hFresh.2
  · intro w hw x hx hLeft
    have hLeft := (mem_without _ _ _).mp hLeft
    rcases List.mem_append.mp hw with hOld | hNew
    · exact hTail.seen w hOld x hx hLeft.1
    · rcases List.mem_map.mp hNew with ⟨m, hFresh, rfl⟩
      rcases List.mem_cons.mp hx with rfl | hBefore
      · exact hLeft.2 hFresh
      · exact hFrontier.seen _ List.mem_cons_self x hBefore
          hLeft.1
  · intro w hw x hx y hy hLeft
    have hLeft := (mem_without _ _ _).mp hLeft
    rcases List.mem_append.mp hw with hOld | hNew
    · exact hTail.expanded w hOld x hx y hy hLeft.1
    · rcases List.mem_map.mp hNew with ⟨m, hFresh, rfl⟩
      rcases List.mem_cons.mp hx with rfl | hBefore
      · exact hLeft.2 ((mem_fresh _ _ _).mpr ⟨hy, hLeft.1⟩)
      · exact hFrontier.expanded _ List.mem_cons_self x
          hBefore y hy hLeft.1

/- In the beginning only the start waits. -/
theorem Frontier.initial
    {nodes : List α}
    (hNodup : nodes.Nodup) :
    Frontier next start (nodes.erase start) [(start, [])] := by
  refine ⟨?_, ?_, ?_⟩
  · intro w hw
    rw [List.mem_singleton] at hw
    subst hw
    exact IsPath.singleton next start
  · intro w hw x hx
    rw [List.mem_singleton] at hw
    subst hw
    rw [List.mem_singleton] at hx
    subst hx
    exact hNodup.not_mem_erase
  · intro w hw x hx
    rw [List.mem_singleton] at hw
    subst hw
    simp at hx

------------------------------------------------------------
-- Paths Of The Tree
------------------------------------------------------------

/- Whatever waits, the search gives paths from the start. -/
theorem isPath_of_mem_treePathsFrom
    {waiting : List (α × List α)}
    (hFrontier : Frontier next start unseen waiting) :
    ∀ path ∈ treePathsFrom next unseen waiting,
      IsPath next start path := by
  fun_induction treePathsFrom next unseen waiting with
  | case1 => simp
  | case2 unseen n before waiting found hLeaf ih =>
      intro path hMem
      rcases List.mem_cons.mp hMem with rfl | hRest
      · exact hFrontier.path _ List.mem_cons_self
      · exact ih hFrontier.tail path hRest
  | case3 unseen n before waiting found hFound ih =>
      exact ih hFrontier.expand

/- The tree has paths from its start. -/
theorem isPath_of_mem_treePaths
    {nodes path : List α}
    (hNodup : nodes.Nodup)
    (hMem : path ∈ treePaths next nodes start) :
    IsPath next start path :=
  isPath_of_mem_treePathsFrom (Frontier.initial hNodup) path hMem

------------------------------------------------------------
-- Nodes Of The Tree
------------------------------------------------------------

/-
  A node that the search still brings onto a path: it lies on a
  waiting path, or is reached from the end of one through
  unseen nodes.
-/
def Covered
    (next : α → List α)
    (unseen : List α)
    (waiting : List (α × List α))
    (x : α) : Prop :=
  ∃ w ∈ waiting,
    x ∈ w.2 ∨ ReflTransGen (NextIn next unseen) w.1 x

/- From a leaf nothing else is reached. -/
theorem eq_of_leaf
    {n x : α}
    (hLeaf : fresh unseen (next n) = [])
    (hPath : ReflTransGen (NextIn next unseen) n x) :
    x = n := by
  rcases ReflTransGen.cases_head hPath with hSame | hStep
  · exact hSame.symm
  · rcases hStep with ⟨m, hFirst, -⟩
    have hFresh : m ∈ fresh unseen (next n) :=
      (mem_fresh _ _ _).mpr hFirst
    rw [hLeaf] at hFresh
    simp at hFresh

/- A leaf takes only its own path off the waiting ones. -/
theorem covered_leaf_iff
    {n x : α}
    {before : List α}
    {waiting : List (α × List α)}
    (hLeaf : fresh unseen (next n) = []) :
    Covered next unseen ((n, before) :: waiting) x ↔
      x ∈ (n :: before).reverse ∨
        Covered next unseen waiting x := by
  constructor
  · rintro ⟨w, hw, hx⟩
    rcases List.mem_cons.mp hw with rfl | hRest
    · apply Or.inl
      rw [List.mem_reverse, List.mem_cons]
      rcases hx with hBefore | hPath
      · exact .inr hBefore
      · exact .inl (eq_of_leaf hLeaf hPath)
    · exact .inr ⟨w, hRest, hx⟩
  · rintro (hPath | ⟨w, hRest, hx⟩)
    · rw [List.mem_reverse, List.mem_cons] at hPath
      refine ⟨_, List.mem_cons_self, ?_⟩
      rcases hPath with rfl | hBefore
      · exact .inr .refl
      · exact .inl hBefore
    · exact ⟨w, List.mem_cons_of_mem _ hRest, hx⟩

/- What is covered after a node is expanded was covered before. -/
theorem Covered.unexpand
    {n x : α}
    {before : List α}
    {waiting : List (α × List α)}
    (hCovered :
      Covered next (without unseen (fresh unseen (next n)))
        (waiting ++
          (fresh unseen (next n)).map (·, n :: before)) x) :
    Covered next unseen ((n, before) :: waiting) x := by
  have hFewer :
      ∀ m ∈ without unseen (fresh unseen (next n)),
        m ∈ unseen :=
    fun m hm => ((mem_without _ _ _).mp hm).1
  rcases hCovered with ⟨w, hw, hx⟩
  rcases List.mem_append.mp hw with hOld | hNew
  · refine ⟨w, List.mem_cons_of_mem _ hOld, ?_⟩
    exact hx.imp_right (reflTransGen_nextIn_mono hFewer)
  · rcases List.mem_map.mp hNew with ⟨m, hFresh, rfl⟩
    refine ⟨(n, before), List.mem_cons_self, ?_⟩
    rcases hx with hBefore | hPath
    · rcases List.mem_cons.mp hBefore with rfl | hBefore
      · exact .inr .refl
      · exact .inl hBefore
    · exact .inr (ReflTransGen.head
        ((mem_fresh _ _ _).mp hFresh)
        (reflTransGen_nextIn_mono hFewer hPath))

/- The nodes of the waiting paths stay on waiting paths. -/
theorem covered_of_mem_waiting
    {n x : α}
    {before : List α}
    {waiting : List (α × List α)}
    (hFound : fresh unseen (next n) ≠ [])
    {w : α × List α}
    (hw : w ∈ (n, before) :: waiting)
    (hx : x ∈ w.1 :: w.2) :
    Covered next (without unseen (fresh unseen (next n)))
      (waiting ++
        (fresh unseen (next n)).map (·, n :: before)) x := by
  rcases List.mem_cons.mp hw with rfl | hRest
  · rcases List.exists_mem_of_ne_nil _ hFound with
      ⟨m, hFresh⟩
    exact ⟨(m, n :: before),
      List.mem_append_right _
        (List.mem_map.mpr ⟨m, hFresh, rfl⟩),
      .inl hx⟩
  · refine ⟨w, List.mem_append_left _ hRest, ?_⟩
    rcases List.mem_cons.mp hx with rfl | hBefore
    · exact .inr .refl
    · exact .inl hBefore

/-
  Expanding a node loses nothing. Along a way through unseen
  nodes, each node either is found now, or comes after one that
  is still to be expanded: the expanded ones have no unseen
  next nodes.
-/
theorem Covered.expand
    {n x : α}
    {before : List α}
    {waiting : List (α × List α)}
    (hFrontier :
      Frontier next start unseen ((n, before) :: waiting))
    (hFound : fresh unseen (next n) ≠ [])
    (hCovered :
      Covered next unseen ((n, before) :: waiting) x) :
    Covered next (without unseen (fresh unseen (next n)))
      (waiting ++
        (fresh unseen (next n)).map (·, n :: before)) x := by
  have hNew := hFrontier.expand
  rcases hCovered with ⟨w, hw, hBefore | hPath⟩
  · exact covered_of_mem_waiting hFound hw
      (List.mem_cons_of_mem _ hBefore)
  · induction hPath with
    | refl =>
        exact covered_of_mem_waiting hFound hw
          List.mem_cons_self
    | @tail y z _ hStep ih =>
        by_cases hFresh : z ∈ fresh unseen (next n)
        · exact ⟨(z, n :: before),
            List.mem_append_right _
              (List.mem_map.mpr ⟨z, hFresh, rfl⟩),
            .inr .refl⟩
        · have hLeft :
              z ∈ without unseen (fresh unseen (next n)) :=
            (mem_without _ _ _).mpr ⟨hStep.2, hFresh⟩
          rcases ih with ⟨v, hv, hExpanded | hOpen⟩
          · exact absurd hLeft
              (hNew.expanded v hv y hExpanded z hStep.1)
          · exact ⟨v, hv, .inr
              (hOpen.tail ⟨hStep.1, hLeft⟩)⟩

/- The nodes on the found paths are the covered ones. -/
theorem exists_mem_treePathsFrom_iff
    {waiting : List (α × List α)}
    (hFrontier : Frontier next start unseen waiting)
    (x : α) :
    (∃ path ∈ treePathsFrom next unseen waiting, x ∈ path) ↔
      Covered next unseen waiting x := by
  fun_induction treePathsFrom next unseen waiting with
  | case1 => simp [Covered]
  | case2 unseen n before waiting found hLeaf ih =>
      rw [covered_leaf_iff hLeaf, ← ih hFrontier.tail]
      simp only [List.mem_cons, exists_eq_or_imp]
  | case3 unseen n before waiting found hFound ih =>
      rw [ih hFrontier.expand]
      exact ⟨Covered.unexpand, Covered.expand hFrontier hFound⟩

/-
  The start is never reached again, so that leaving it out of
  the unseen nodes changes nothing.
-/
theorem reflTransGen_nextIn_erase_iff
    {nodes : List α}
    (hClosed : ∀ a, ∀ b ∈ next a, b ∈ nodes)
    (x : α) :
    ReflTransGen (NextIn next (nodes.erase start)) start x ↔
      ReflTransGen (Next next) start x := by
  rw [← nextIn_eq_next hClosed]
  constructor
  · intro hPath
    exact reflTransGen_nextIn_mono
      (fun _ => List.mem_of_mem_erase) hPath
  · intro hPath
    induction hPath with
    | refl => exact .refl
    | @tail y z _ hStep ih =>
        by_cases hStart : z = start
        · rw [hStart]
        · exact ih.tail ⟨hStep.1,
            (List.mem_erase_of_ne hStart).mpr hStep.2⟩

/- The nodes of the tree are the ones that can be reached. -/
theorem exists_mem_treePaths_iff
    {nodes : List α}
    (hNodup : nodes.Nodup)
    (hClosed : ∀ a, ∀ b ∈ next a, b ∈ nodes)
    (x : α) :
    (∃ path ∈ treePaths next nodes start, x ∈ path) ↔
      ReflTransGen (Next next) start x := by
  rw [treePaths,
    exists_mem_treePathsFrom_iff (Frontier.initial hNodup),
    ← reflTransGen_nextIn_erase_iff hClosed]
  simp [Covered]

end Graph

end Uncaught
